/-
This file proves that the module index is the closure of the recorded modules under
the directories above them: nothing is missing from it and nothing else is in it. As
its lists are ascending, it is the same for any two recordings of the same modules,
however often and in whatever order they were recorded.
-/

import Mathlib.Data.List.Induction
import Mathlib.Data.List.Sort
import Mathlib.Data.String.Basic
import ServiceForge.Generation.ModuleIndex
import ServiceForge.Proofs.Repetitions

namespace ServiceForge

namespace Generation

namespace Directories

/-- Directories and the children of each are in ascending order. -/
structure Ascending (directories : Directories) : Prop where
  inOrder : directories.Pairwise fun first second => first.1 < second.1
  children : ∀ entry ∈ directories, entry.2.Pairwise (· < ·)

namespace Ascending

variable {directories others : Directories}

theorem nil : Ascending [] := ⟨List.Pairwise.nil, fun _ member => by cases member⟩

/-- Directories stay in order when a link is added. -/
theorem add (ascending : Ascending directories) (link : Link) :
    Ascending (directories.add link) := by
  induction directories with
  | nil =>
    refine ⟨List.pairwise_singleton _ _, fun entry member => ?_⟩
    rw [List.mem_singleton.mp member]
    exact List.pairwise_singleton _ _
  | cons entry rest inductionHypothesis =>
    obtain ⟨first, children⟩ := entry
    obtain ⟨least, ascendingRest⟩ := List.pairwise_cons.mp ascending.inOrder
    have firstChildren := ascending.children _ List.mem_cons_self
    have restChildren : ∀ entry ∈ rest, entry.2.Pairwise (· < ·) :=
      fun entry member => ascending.children entry (List.mem_cons_of_mem _ member)
    unfold Directories.add
    split
    · refine ⟨List.pairwise_cons.mpr ⟨least, ascendingRest⟩, fun entry member => ?_⟩
      rcases List.mem_cons.mp member with rfl | member
      · exact SortedSet.insert_ascending _ firstChildren
      · exact restChildren entry member
    · next different =>
      split
      · next less =>
        refine ⟨List.pairwise_cons.mpr ⟨fun entry member => ?_, ascending.inOrder⟩,
          fun entry member => ?_⟩
        · rcases List.mem_cons.mp member with rfl | member
          · exact less
          · exact less.trans (least entry member)
        · rcases List.mem_cons.mp member with rfl | member
          · exact List.pairwise_singleton _ _
          · exact ascending.children entry member
      · next notLess =>
        obtain ⟨added, addedChildren⟩ := inductionHypothesis ⟨ascendingRest, restChildren⟩
        refine ⟨List.pairwise_cons.mpr ⟨fun entry member => ?_, added⟩, fun entry member => ?_⟩
        · have inside : entry.1 ∈ (Directories.add link rest).present :=
            List.mem_map.mpr ⟨entry, member, rfl⟩
          rcases mem_present_add.mp inside with same | inside
          · rw [same]
            exact lt_of_le_of_ne (not_lt.mp notLess) (Ne.symm different)
          · obtain ⟨other, held, same⟩ := List.mem_map.mp inside
            rw [← same]
            exact least other held
        · rcases List.mem_cons.mp member with rfl | member
          · exact firstChildren
          · exact addedChildren entry member

theorem addAll (ascending : Ascending directories) (links : List Link) :
    Ascending (directories.addAll links) := by
  induction links generalizing directories with
  | nil => exact ascending
  | cons link rest inductionHypothesis => exact inductionHypothesis (ascending.add link)

/-- Closing keeps directories in order. -/
theorem close (ascending : Ascending directories) : Ascending directories.close := by
  fun_induction Directories.close with
  | case1 => exact ascending
  | case2 directories _ inductionHypothesis => exact inductionHypothesis (ascending.addAll _)

theorem nodup_present (ascending : Ascending directories) : directories.present.Nodup :=
  List.pairwise_map.mpr (ascending.inOrder.imp fun less => less.ne)

/-- A directory has one list of children. -/
theorem lookup_eq_some (ascending : Ascending directories) {directory children : List _} :
    directories.lookup directory = some children ↔ (directory, children) ∈ directories := by
  have distinct := ascending.nodup_present
  induction directories with
  | nil => simp
  | cons entry rest inductionHypothesis =>
    obtain ⟨first, others⟩ := entry
    obtain ⟨absent, distinctRest⟩ := List.nodup_cons.mp distinct
    have ascendingRest : Ascending rest :=
      ⟨ascending.inOrder.of_cons,
        fun entry member => ascending.children entry (List.mem_cons_of_mem _ member)⟩
    by_cases hit : directory = first
    · subst hit
      have elsewhere : (directory, children) ∉ rest :=
        fun member => absent (List.mem_map.mpr ⟨_, member, rfl⟩)
      simp [elsewhere, eq_comm]
    · have different : (directory == first) = false := by simpa using hit
      simp [List.lookup_cons, different, hit, inductionHypothesis ascendingRest distinctRest]

/-- A directory has an entry exactly if it is present. -/
theorem isSome_lookup (ascending : Ascending directories) {directory : List String} :
    (directories.lookup directory).isSome = true ↔ directory ∈ directories.present := by
  simp only [Option.isSome_iff_exists, ascending.lookup_eq_some, present, List.mem_map,
    Prod.exists, exists_and_right, exists_eq_right]

/-- The children of a directory are exactly those that are linked from it. -/
theorem mem_children (ascending : Ascending directories) {directory children : List String}
    (found : directories.lookup directory = some children) {child : String} :
    child ∈ children ↔ directories.lists ⟨directory, child⟩ = true := by
  rw [mem_lists]
  constructor
  · intro inside
    exact ⟨children, ascending.lookup_eq_some.mp found, inside⟩
  · rintro ⟨others, member, inside⟩
    have same := (ascending.lookup_eq_some.mpr member).symm.trans found
    exact Option.some.inj same ▸ inside

/-- Ascending directories are determined by what they list. -/
theorem eq_of_lists (ascending : Ascending directories) (ascendingOthers : Ascending others)
    (present : ∀ directory, directory ∈ directories.present ↔ directory ∈ others.present)
    (lists : ∀ link, directories.lists link = true ↔ others.lists link = true) :
    directories = others := by
  have subset : ∀ {first second : Directories}, Ascending first → Ascending second →
      (∀ directory, directory ∈ first.present → directory ∈ second.present) →
      (∀ link, first.lists link = true ↔ second.lists link = true) → first ⊆ second := by
    rintro first second inOrder inOrderSecond held listed ⟨directory, children⟩ member
    have inside := held directory (List.mem_map.mpr ⟨_, member, rfl⟩)
    obtain ⟨⟨_, otherChildren⟩, memberSecond, rfl⟩ := List.mem_map.mp inside
    have found := inOrder.lookup_eq_some.mpr member
    have foundSecond := inOrderSecond.lookup_eq_some.mpr memberSecond
    have same : children = otherChildren := by
      refine (inOrder.children _ member).eq_of_mem_iff (inOrderSecond.children _ memberSecond) ?_
      intro child
      rw [inOrder.mem_children found, inOrderSecond.mem_children foundSecond, listed]
    exact same ▸ memberSecond
  have distinct : ∀ {entries : Directories}, Ascending entries → entries.Nodup :=
    fun inOrder => inOrder.nodup_present.of_map _
  have permuted : directories.Perm others :=
    (List.perm_ext_iff_of_nodup (distinct ascending) (distinct ascendingOthers)).mpr fun entry =>
      ⟨fun member => subset ascending ascendingOthers (fun _ => (present _).mp) lists member,
        fun member => subset ascendingOthers ascending (fun _ => (present _).mpr)
          (fun link => (lists link).symm) member⟩
  exact permuted.eq_of_pairwise
    (fun _ _ _ _ less more => absurd less (lt_asymm more))
    ascending.inOrder ascendingOthers.inOrder

end Ascending

/-! ### The closure -/

/-- No directory misses in a closed index. -/
theorem missing_close (directories : Directories) : directories.close.missing = [] := by
  fun_induction Directories.close with
  | case1 _ complete => exact complete
  | case2 _ _ inductionHypothesis => exact inductionHypothesis

/-- A round adds exactly the links of the directories that are present. -/
theorem lists_round {directories : Directories} {link : Link} :
    directories.round.lists link = true ↔
      link ∈ directories.links ∨ directories.lists link = true := lists_addAll

theorem mem_present_round {directories : Directories} {directory : List String} :
    directory ∈ directories.round.present ↔
      (∃ link ∈ directories.links, directory = link.directory) ∨
        directory ∈ directories.present := mem_present_addAll

/-- What is above a directory after a round was above one before it. -/
theorem prefix_present_of_round {directories : Directories} {upper lower : List String}
    (above : upper <+: lower) (member : lower ∈ directories.round.present) :
    ∃ lower ∈ directories.present, upper <+: lower := by
  rcases mem_present_round.mp member with ⟨link, leads, rfl⟩ | member
  · exact ⟨_, (mem_links.mp leads).2, above.trans (List.prefix_append _ _)⟩
  · exact ⟨lower, member, above⟩

/-- If no link is missing, all that is above a directory is there. -/
theorem present_of_prefix {directories : Directories} (complete : directories.missing = [])
    {upper below : List String} (filled : upper ≠ [])
    (member : upper ++ below ∈ directories.present) : upper ∈ directories.present := by
  induction below using List.reverseRecOn with
  | nil => exact List.append_nil upper ▸ member
  | append_singleton below child inductionHypothesis =>
    refine inductionHypothesis ?_
    have leads : (⟨upper ++ below, child⟩ : Link) ∈ directories.links := by
      refine mem_links.mpr ⟨List.append_ne_nil_of_left_ne_nil filled below, ?_⟩
      rwa [List.append_assoc]
    by_contra absent
    have unlisted : directories.lists ⟨upper ++ below, child⟩ = false :=
      Bool.eq_false_iff.mpr fun listed => absent (present_of_lists listed)
    exact List.not_mem_nil (complete ▸ mem_missing.mpr ⟨leads, unlisted⟩)

/-- A complete index lists all directories that it has. -/
theorem lists_of_present {directories : Directories} (complete : directories.missing = [])
    {link : Link} (filled : link.directory ≠ [])
    (member : link.directory ++ [link.child] ∈ directories.present) :
    directories.lists link = true := by
  by_contra unlisted
  have lacking : link ∈ directories.missing :=
    mem_missing.mpr ⟨mem_links.mpr ⟨filled, member⟩, Bool.eq_false_iff.mpr unlisted⟩
  exact List.not_mem_nil (complete ▸ lacking)

/-- Closing adds exactly the directories above those that are present. -/
theorem mem_present_close {directories : Directories} {directory : List String} :
    directory ∈ directories.close.present ↔
      directory ∈ directories.present ∨
        directory ≠ [] ∧ ∃ lower ∈ directories.present, directory <+: lower := by
  constructor
  · fun_induction Directories.close with
    | case1 => exact Or.inl
    | case2 directories _ inductionHypothesis =>
      intro member
      rcases inductionHypothesis member with added | ⟨filled, lower, held, above⟩
      · rcases mem_present_round.mp added with ⟨link, leads, rfl⟩ | old
        · obtain ⟨filled, below⟩ := mem_links.mp leads
          exact Or.inr ⟨filled, _, below, List.prefix_append _ _⟩
        · exact Or.inl old
      · exact Or.inr ⟨filled, prefix_present_of_round above held⟩
  · have kept : ∀ {lower}, lower ∈ directories.present → lower ∈ directories.close.present := by
      fun_induction Directories.close with
      | case1 => exact id
      | case2 directories _ inductionHypothesis =>
        exact fun held => inductionHypothesis (mem_present_round.mpr (Or.inr held))
    rintro (member | ⟨filled, lower, held, below, rfl⟩)
    · exact kept member
    · exact present_of_prefix (missing_close directories) filled (kept held)

/-- Closing adds exactly the links on the way to directories that are present. -/
theorem lists_close {directories : Directories} {link : Link} :
    directories.close.lists link = true ↔
      directories.lists link = true ∨
        link.directory ≠ [] ∧ ∃ lower ∈ directories.present,
          link.directory ++ [link.child] <+: lower := by
  constructor
  · fun_induction Directories.close with
    | case1 => exact Or.inl
    | case2 directories _ inductionHypothesis =>
      intro listed
      rcases inductionHypothesis listed with added | ⟨filled, lower, held, above⟩
      · rcases lists_round.mp added with leads | old
        · obtain ⟨filled, below⟩ := mem_links.mp leads
          exact Or.inr ⟨filled, _, below, List.prefix_refl _⟩
        · exact Or.inl old
      · exact Or.inr ⟨filled, prefix_present_of_round above held⟩
  · rintro (listed | ⟨filled, lower, held, above⟩)
    · fun_induction Directories.close with
      | case1 => exact listed
      | case2 directories _ inductionHypothesis =>
        exact inductionHypothesis (lists_round.mpr (Or.inr listed))
    · refine lists_of_present (missing_close directories) filled ?_
      exact mem_present_close.mpr (Or.inr ⟨by simp, lower, held, above⟩)

end Directories

namespace ModuleIndex

/-! ### Recordings -/

/-- One way to record modules. -/
inductive Recording where
  | single (record : ModuleRecord)
  | several (records : List ModuleRecord)

namespace Recording

/-- The modules that are recorded at once. -/
def records : Recording → List ModuleRecord
  | single record => [record]
  | several records => records

end Recording

namespace Builder

/-- Records what is recorded at once. -/
def record (builder : Builder) : Recording → Builder
  | .single record => builder.add record
  | .several records => builder.extend records

/-- The modules of recordings that were made one after another. -/
def ofRecordings (recordings : List Recording) : Builder := recordings.foldl record {}

theorem extend_append (builder : Builder) (first second : List ModuleRecord) :
    builder.extend (first ++ second) = (builder.extend first).extend second :=
  List.foldl_append

/-- Only the modules count, not how they were recorded. -/
theorem ofRecordings_eq (recordings : List Recording) :
    ofRecordings recordings = extend {} (recordings.flatMap Recording.records) := by
  have general : ∀ builder : Builder, recordings.foldl record builder =
      builder.extend (recordings.flatMap Recording.records) := by
    induction recordings with
    | nil => exact fun _ => rfl
    | cons first rest inductionHypothesis =>
      intro builder
      rw [List.foldl_cons, inductionHypothesis, List.flatMap_cons, extend_append]
      cases first <;> rfl
  exact general {}

variable {builder : Builder} {records : List ModuleRecord}

theorem ascending_extend (ascending : builder.entries.Ascending) :
    (builder.extend records).entries.Ascending := by
  induction records generalizing builder with
  | nil => exact ascending
  | cons first rest inductionHypothesis =>
    refine inductionHypothesis ?_
    unfold add
    split
    · exact ascending
    · exact ascending.add _

/-- Recording adds exactly the directories of the records. -/
theorem mem_present_extend {directory : List String} :
    directory ∈ (builder.extend records).entries.present ↔
      (directory ≠ [] ∧ ∃ record ∈ records, record.directory = directory) ∨
        directory ∈ builder.entries.present := by
  induction records generalizing builder with
  | nil => simp [extend]
  | cons first rest inductionHypothesis =>
    have step : builder.extend (first :: rest) = (builder.add first).extend rest := rfl
    rw [step, inductionHypothesis]
    unfold add
    split
    · next root =>
      have empty : first.directory = [] := List.isEmpty_iff.mp root
      simp only [List.mem_cons, exists_eq_or_imp, empty]
      constructor
      · exact Or.imp_left (And.imp_right Or.inr)
      · rintro (⟨filled, same | other⟩ | old)
        · exact absurd same.symm filled
        · exact Or.inl ⟨filled, other⟩
        · exact Or.inr old
    · next below =>
      have filled : first.directory ≠ [] := fun empty => below (List.isEmpty_iff.mpr empty)
      simp only [List.mem_cons, exists_eq_or_imp, Directories.mem_present_add]
      constructor
      · rintro (⟨nonempty, other⟩ | rfl | old)
        · exact Or.inl ⟨nonempty, Or.inr other⟩
        · exact Or.inl ⟨filled, Or.inl rfl⟩
        · exact Or.inr old
      · rintro (⟨nonempty, rfl | other⟩ | old)
        · exact Or.inr (Or.inl rfl)
        · exact Or.inl ⟨nonempty, other⟩
        · exact Or.inr (Or.inr old)

/-- Recording adds exactly the links of the records. -/
theorem lists_extend {link : Link} :
    (builder.extend records).entries.lists link = true ↔
      (link.directory ≠ [] ∧ (⟨link.directory, link.child⟩ : ModuleRecord) ∈ records) ∨
        builder.entries.lists link = true := by
  induction records generalizing builder with
  | nil => simp [extend]
  | cons first rest inductionHypothesis =>
    have step : builder.extend (first :: rest) = (builder.add first).extend rest := rfl
    rw [step, inductionHypothesis]
    unfold add
    split
    · next root =>
      have empty : first.directory = [] := List.isEmpty_iff.mp root
      rw [List.mem_cons]
      constructor
      · exact Or.imp_left (And.imp_right Or.inr)
      · rintro (⟨filled, rfl | other⟩ | old)
        · exact absurd empty filled
        · exact Or.inl ⟨filled, other⟩
        · exact Or.inr old
    · next below =>
      have filled : first.directory ≠ [] := fun empty => below (List.isEmpty_iff.mpr empty)
      rw [List.mem_cons, Directories.lists_add]
      constructor
      · rintro (⟨nonempty, other⟩ | rfl | old)
        · exact Or.inl ⟨nonempty, Or.inr other⟩
        · exact Or.inl ⟨filled, Or.inl rfl⟩
        · exact Or.inr old
      · rintro (⟨nonempty, same | other⟩ | old)
        · subst same
          exact Or.inr (Or.inl rfl)
        · exact Or.inl ⟨nonempty, other⟩
        · exact Or.inr (Or.inr old)

end Builder

/-! ### What is in an index -/

variable {records others : List ModuleRecord} {directory children : List String} {child : String}

theorem ascending_ofRecords (records : List ModuleRecord) :
    (ofRecords records).entries.Ascending :=
  (Builder.ascending_extend .nil).close

/-- A directory has children exactly if a record is below it. -/
theorem isSome_children? :
    ((ofRecords records).children? directory).isSome = true ↔
      directory ≠ [] ∧ ∃ record ∈ records, directory <+: record.directory := by
  rw [children?, (ascending_ofRecords records).isSome_lookup]
  show directory ∈ (Builder.extend {} records).entries.close.present ↔ _
  have recorded : ∀ {lower : List String},
      lower ∈ (Builder.extend {} records).entries.present ↔
        lower ≠ [] ∧ ∃ record ∈ records, record.directory = lower :=
    Builder.mem_present_extend.trans (or_iff_left List.not_mem_nil)
  rw [Directories.mem_present_close]
  constructor
  · rintro (member | ⟨filled, lower, member, above⟩)
    · obtain ⟨filled, record, held, rfl⟩ := recorded.mp member
      exact ⟨filled, record, held, List.prefix_refl _⟩
    · obtain ⟨-, record, held, rfl⟩ := recorded.mp member
      exact ⟨filled, record, held, above⟩
  · rintro ⟨filled, record, held, above⟩
    exact Or.inr ⟨filled, record.directory,
      recorded.mpr ⟨fun empty => filled (List.prefix_nil.mp (empty ▸ above)), record, held, rfl⟩,
      above⟩

/-- An index links exactly the records and the directories on the way to them. -/
theorem lists_ofRecords {link : Link} (filled : link.directory ≠ []) :
    (ofRecords records).entries.lists link = true ↔
      (⟨link.directory, link.child⟩ : ModuleRecord) ∈ records ∨
        ∃ record ∈ records, link.directory ++ [link.child] <+: record.directory := by
  show (Builder.extend {} records).entries.close.lists link = true ↔ _
  rw [Directories.lists_close, Builder.lists_extend]
  constructor
  · rintro ((⟨-, held⟩ | none) | ⟨-, lower, member, above⟩)
    · exact Or.inl held
    · cases none
    · obtain ⟨-, record, held, rfl⟩ :=
        (Builder.mem_present_extend.mp member).resolve_right List.not_mem_nil
      exact Or.inr ⟨record, held, above⟩
  · rintro (held | ⟨record, held, above⟩)
    · exact Or.inl (Or.inl ⟨filled, held⟩)
    · refine Or.inr ⟨filled, record.directory, Builder.mem_present_extend.mpr (Or.inl ?_), above⟩
      refine ⟨fun empty => ?_, record, held, rfl⟩
      rw [empty] at above
      exact List.append_ne_nil_of_left_ne_nil filled _ (List.prefix_nil.mp above)

/-- The children of a directory are its records and the directories below it. -/
theorem mem_children? (found : (ofRecords records).children? directory = some children) :
    child ∈ children ↔
      (⟨directory, child⟩ : ModuleRecord) ∈ records ∨
        ∃ record ∈ records, directory ++ [child] <+: record.directory := by
  have filled : directory ≠ [] :=
    (isSome_children?.mp (Option.isSome_iff_exists.mpr ⟨_, found⟩)).1
  rw [(ascending_ofRecords records).mem_children found, lists_ofRecords filled]

/-- The same modules have the same index. -/
theorem ofRecords_congr (same : ∀ record, record ∈ records ↔ record ∈ others) :
    ofRecords records = ofRecords others := by
  have present : ∀ directory, directory ∈ (ofRecords records).entries.present ↔
      directory ∈ (ofRecords others).entries.present := by
    intro directory
    rw [← (ascending_ofRecords records).isSome_lookup, ← (ascending_ofRecords others).isSome_lookup]
    show ((ofRecords records).children? directory).isSome = true ↔
      ((ofRecords others).children? directory).isSome = true
    simp only [isSome_children?, same]
  have lists : ∀ link, (ofRecords records).entries.lists link = true ↔
      (ofRecords others).entries.lists link = true := by
    intro link
    by_cases filled : link.directory = []
    · have root : ∀ records, (ofRecords records).entries.lists link = false := by
        intro records
        refine Bool.eq_false_iff.mpr fun listed => ?_
        have member := Directories.present_of_lists listed
        rw [← (ascending_ofRecords records).isSome_lookup] at member
        exact (isSome_children?.mp member).1 filled
      rw [root records, root others]
    · simp only [lists_ofRecords filled, same]
  exact congrArg ModuleIndex.mk
    ((ascending_ofRecords records).eq_of_lists (ascending_ofRecords others) present lists)

/-! ### Ways through an index -/

/-- Whether lists of children lead from a directory to a directory or module. -/
inductive Leads (index : ModuleIndex) (start : List String) : List String → Prop
  | here : Leads index start start
  | child {directory children : List String} {child : String} :
      Leads index start directory → index.children? directory = some children →
        child ∈ children → Leads index start (directory ++ [child])

/-- A directory on the way to a recorded module is reached from the top of the way. -/
theorem leads_of_prefix {record : ModuleRecord} (member : record ∈ records) {top : String}
    {below : List String} (above : top :: below <+: record.directory) :
    Leads (ofRecords records) [top] (top :: below) := by
  induction below using List.reverseRecOn with
  | nil => exact .here
  | append_singleton below child inductionHypothesis =>
    have upper : top :: below <+: record.directory :=
      List.IsPrefix.trans (List.prefix_append (top :: below) [child]) above
    obtain ⟨children, found⟩ := Option.isSome_iff_exists.mp
      (isSome_children?.mpr ⟨List.cons_ne_nil top below, record, member, upper⟩)
    exact .child (inductionHypothesis upper) found
      ((mem_children? found).mpr (Or.inr ⟨record, member, above⟩))

/-- Each record is reached from the top of its directory. -/
theorem leads_of_mem {record : ModuleRecord} (member : record ∈ records) {top : String}
    {below : List String} (inside : record.directory = top :: below) :
    Leads (ofRecords records) [top] (record.directory ++ [record.name]) := by
  obtain ⟨children, found⟩ := Option.isSome_iff_exists.mp
    (isSome_children?.mpr ⟨inside ▸ List.cons_ne_nil top below, record, member, List.prefix_refl _⟩)
  refine .child ?_ found ((mem_children? found).mpr (Or.inl member))
  rw [inside]
  exact leads_of_prefix member (inside ▸ List.prefix_refl _)

/-- The index of any recordings has exactly the directories above their modules. The children of a
directory are its modules and the directories right below it. The index depends on which modules
were recorded and on nothing else, its lists lead to every module below the root, and what they
name is a directory of the index or a module. -/
theorem build_closure (recordings : List Recording) :
    let index := (Builder.ofRecordings recordings).build
    let records := recordings.flatMap Recording.records
    (∀ directory, (index.children? directory).isSome = true ↔
        directory ≠ [] ∧ ∃ record ∈ records, directory <+: record.directory) ∧
      (∀ directory children, index.children? directory = some children →
        ∀ child, child ∈ children ↔
          (∃ record ∈ records, record.directory = directory ∧ record.name = child) ∨
            ∃ record ∈ records, directory ++ [child] <+: record.directory) ∧
      (∀ others : List Recording,
        (∀ record, record ∈ others.flatMap Recording.records ↔ record ∈ records) →
          (Builder.ofRecordings others).build = index) ∧
      (∀ record ∈ records, ∀ top below, record.directory = top :: below →
        Leads index [top] (record.directory ++ [record.name])) ∧
      ∀ directory children child, index.children? directory = some children → child ∈ children →
        (∃ record ∈ records, record.directory = directory ∧ record.name = child) ∨
          (index.children? (directory ++ [child])).isSome = true := by
  intro index records
  have whole : ∀ recordings : List Recording, (Builder.ofRecordings recordings).build =
      ofRecords (recordings.flatMap Recording.records) :=
    fun recordings => congrArg Builder.build (Builder.ofRecordings_eq recordings)
  have isIndex : index = ofRecords records := whole recordings
  have children : ∀ directory children, index.children? directory = some children →
      ∀ child, child ∈ children ↔
        (∃ record ∈ records, record.directory = directory ∧ record.name = child) ∨
          ∃ record ∈ records, directory ++ [child] <+: record.directory := by
    intro directory children found child
    rw [isIndex] at found
    rw [mem_children? found]
    refine or_congr_left ⟨fun held => ⟨_, held, rfl, rfl⟩, ?_⟩
    rintro ⟨record, held, rfl, rfl⟩
    exact held
  refine ⟨fun directory => ?_, children, fun others same => ?_, fun record member top below => ?_,
    fun directory childrenOf child found inside => ?_⟩
  · rw [isIndex]
    exact isSome_children?
  · rw [isIndex, whole others]
    exact ofRecords_congr same
  · rw [isIndex]
    exact leads_of_mem member
  · refine ((children directory childrenOf found child).mp inside).imp_right ?_
    rintro ⟨record, held, above⟩
    rw [isIndex]
    exact isSome_children?.mpr ⟨by simp, record, held, above⟩

end ModuleIndex

end Generation

end ServiceForge
