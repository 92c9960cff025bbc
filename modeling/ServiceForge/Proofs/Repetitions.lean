/-
This file is about lists without repetitions. What is left of a list when repetitions are
taken out stands in the order of first occurrences. Sets stay ascending when members are
inserted, and a member that is there already changes nothing.
-/

import Mathlib.Data.List.Induction
import Mathlib.Data.List.Nodup
import Mathlib.Data.List.Sort
import ServiceForge.SortedSet

namespace ServiceForge

variable {α : Type} [DecidableEq α]

theorem idxOf_lt_of_filter {items : List α} {keep : α → Bool} {first second : α}
    (keepFirst : keep first = true) (keepSecond : keep second = true)
    (before : (items.filter keep).idxOf first < (items.filter keep).idxOf second) :
    items.idxOf first < items.idxOf second := by
  induction items with
  | nil => exact before
  | cons item rest inductionHypothesis =>
    by_cases kept : keep item = true
    · rw [List.filter_cons_of_pos kept] at before
      by_cases isSecond : item = second
      · subst isSecond
        rw [List.idxOf_cons_self (l := rest.filter keep)] at before
        exact absurd before (Nat.not_lt_zero _)
      · rw [List.idxOf_cons_ne _ isSecond] at before ⊢
        by_cases isFirst : item = first
        · subst isFirst
          rw [List.idxOf_cons_self]
          exact Nat.succ_pos _
        · rw [List.idxOf_cons_ne _ isFirst] at before ⊢
          exact Nat.succ_lt_succ (inductionHypothesis (Nat.lt_of_succ_lt_succ before))
    · rw [List.filter_cons_of_neg kept] at before
      have notFirst : item ≠ first := fun same => kept (same ▸ keepFirst)
      have notSecond : item ≠ second := fun same => kept (same ▸ keepSecond)
      rw [List.idxOf_cons_ne _ notFirst, List.idxOf_cons_ne _ notSecond]
      exact Nat.succ_lt_succ (inductionHypothesis before)

/-- What is left without repetitions stands in the order of first occurrences. -/
theorem eraseDups_pairwise (items : List α) :
    items.eraseDups.Pairwise fun first second => items.idxOf first < items.idxOf second := by
  -- The later items are filtered before their own repetitions are left out, so the recursion is on
  -- the length and not on the list.
  match items with
  | [] => exact List.Pairwise.nil
  | item :: rest =>
    have later := eraseDups_pairwise (rest.filter fun other => !other == item)
    have apart : ∀ {other}, other ∈ (rest.filter fun other => !other == item).eraseDups →
        item ≠ other ∧ (!other == item) = true := by
      intro other member
      have kept := (List.mem_filter.mp (List.mem_eraseDups.mp member)).2
      exact ⟨fun same => by simp [same] at kept, kept⟩
    rw [List.eraseDups_cons]
    refine List.pairwise_cons.mpr ⟨fun other member => ?_, ?_⟩
    · rw [List.idxOf_cons_self, List.idxOf_cons_ne _ (apart member).1]
      exact Nat.succ_pos _
    · refine later.imp_of_mem fun {first second} memberFirst memberSecond less => ?_
      rw [List.idxOf_cons_ne _ (apart memberFirst).1, List.idxOf_cons_ne _ (apart memberSecond).1]
      exact Nat.succ_lt_succ
        (idxOf_lt_of_filter (apart memberFirst).2 (apart memberSecond).2 less)
termination_by items.length
decreasing_by exact Nat.lt_succ_of_le (List.length_filter_le _ _)

theorem nodup_eraseDups (items : List α) : items.eraseDups.Nodup :=
  (eraseDups_pairwise items).imp fun before same => by
    rw [same] at before
    exact Nat.lt_irrefl _ before

theorem eraseDups_of_nodup {items : List α} (distinct : items.Nodup) : items.eraseDups = items := by
  induction items using List.reverseRecOn with
  | nil => rfl
  | append_singleton items item inductionHypothesis =>
    obtain ⟨distinct, -, apart⟩ := List.nodup_append.mp distinct
    have new : item ∉ items := fun held => apart item held item (List.mem_singleton_self item) rfl
    have single : [item].eraseDups = [item] := rfl
    rw [List.eraseDups_append, inductionHypothesis distinct]
    simp [List.removeAll, new, single]

end ServiceForge

namespace ServiceForge.SortedSet

variable {α : Type} [LinearOrder α]

theorem insert_ascending (member : α) {set : List α}
    (ascending : set.Pairwise (· < ·)) : (insert member set).Pairwise (· < ·) := by
  induction set with
  | nil => exact List.pairwise_singleton _ _
  | cons first rest inductionHypothesis =>
    obtain ⟨least, ascendingRest⟩ := List.pairwise_cons.mp ascending
    unfold insert
    split
    · exact ascending
    · next different =>
      split
      · next less =>
        refine List.pairwise_cons.mpr ⟨fun other inside => ?_, ascending⟩
        rcases List.mem_cons.mp inside with rfl | inside
        · exact less
        · exact less.trans (least other inside)
      · next notLess =>
        refine List.pairwise_cons.mpr ⟨fun other inside => ?_, inductionHypothesis ascendingRest⟩
        rcases mem_insert.mp inside with rfl | inside
        · exact lt_of_le_of_ne (not_lt.mp notLess) (Ne.symm different)
        · exact least other inside

theorem insertAll_ascending (members : List α) {set : List α} (ascending : set.Pairwise (· < ·)) :
    (insertAll members set).Pairwise (· < ·) := by
  induction members generalizing set with
  | nil => exact ascending
  | cons member rest inductionHypothesis =>
    exact inductionHypothesis (insert_ascending member ascending)

theorem insert_of_mem {member : α} {set : List α} (ascending : set.Pairwise (· < ·))
    (held : member ∈ set) : insert member set = set := by
  induction set with
  | nil => cases held
  | cons first rest inductionHypothesis =>
    obtain ⟨least, ascendingRest⟩ := List.pairwise_cons.mp ascending
    unfold insert
    split
    · rfl
    · next different =>
      have later : member ∈ rest := (List.mem_cons.mp held).resolve_left different
      rw [if_neg (not_lt.mpr (least member later).le), inductionHypothesis ascendingRest later]

theorem insertAll_of_subset {members set : List α} (ascending : set.Pairwise (· < ·))
    (held : members ⊆ set) : insertAll members set = set := by
  induction members with
  | nil => rfl
  | cons member rest inductionHypothesis =>
    obtain ⟨first, others⟩ := List.cons_subset.mp held
    have step : insertAll (member :: rest) set = insertAll rest (insert member set) := rfl
    rw [step, insert_of_mem ascending first, inductionHypothesis others]

end ServiceForge.SortedSet
