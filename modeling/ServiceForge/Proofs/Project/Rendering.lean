/-
This file says what rendering the members of a list one after another gives: the files
of all of them if none fails, and else those of the members before the first that does,
with the failure of that one.
-/

import ServiceForge.Project.Plan
import ServiceForge.Proofs.Except

namespace ServiceForge.Project.Rendering

open ServiceForge.Generation (File)

variable {α ε : Type} {render : α → Rendering} {give : α → Except ε (List File)}
  {place : α → String} {results : List (List File)}

/-! ### One after another -/

@[simp] theorem forEach_cons (member : α) (rest : List α) :
    forEach render (member :: rest) = (render member).andThen (forEach render rest) := rfl

theorem failure_andThen {first second : Rendering} {error : Error}
    (failed : (first.andThen second).failure = some error) :
    first.failure = some error ∨ second.failure = some error := by
  unfold andThen at failed
  cases given : first.failure with
  | some other =>
    rw [given] at failed
    exact Or.inl (given.symm.trans failed)
  | none =>
    rw [given] at failed
    exact Or.inr failed

/-- A list fails only if a member of it does. -/
theorem failure_forEach {members : List α} {error : Error}
    (failed : (forEach render members).failure = some error) :
    ∃ member ∈ members, (render member).failure = some error := by
  induction members with
  | nil => cases failed
  | cons member rest inductionHypothesis =>
    rcases failure_andThen failed with here | later
    · exact ⟨member, List.mem_cons_self, here⟩
    · obtain ⟨other, inside, failed⟩ := inductionHypothesis later
      exact ⟨other, List.mem_cons_of_mem _ inside, failed⟩

/-- Two renderings succeed together if both do. -/
theorem failure_andThen_eq_none {first second : Rendering} :
    (first.andThen second).failure = none ↔ first.failure = none ∧ second.failure = none := by
  unfold andThen
  cases given : first.failure with
  | none => simp
  | some error => simp [given]

theorem failure_of_mem {members : List α} (done : (forEach render members).failure = none)
    {member : α} (inside : member ∈ members) : (render member).failure = none := by
  induction members with
  | nil => cases inside
  | cons first rest inductionHypothesis =>
    obtain ⟨here, later⟩ := failure_andThen_eq_none.mp done
    rcases List.mem_cons.mp inside with rfl | inRest
    · exact here
    · exact inductionHypothesis later inRest

/-! ### Where files come from -/

section Files

variable {file : File}

theorem mem_files_ofResult {specs : List String} {result : Except Error (List File)} :
    file ∈ (ofResult specs result).files ↔ ∃ files, result = .ok files ∧ file ∈ files := by
  cases result <;> simp [ofResult]

theorem mem_files_andThen {first second : Rendering}
    (member : file ∈ (first.andThen second).files) : file ∈ first.files ∨ file ∈ second.files := by
  unfold andThen at member
  split at member
  · exact Or.inl member
  · exact List.mem_append.mp member

/-- A file of a list is one of a member of it, also if a member fails. -/
theorem mem_files_forEach {members : List α} (member : file ∈ (forEach render members).files) :
    ∃ item ∈ members, file ∈ (render item).files := by
  induction members with
  | nil => cases member
  | cons first rest inductionHypothesis =>
    rcases mem_files_andThen member with here | later
    · exact ⟨first, List.mem_cons_self, here⟩
    · obtain ⟨item, inside, held⟩ := inductionHypothesis later
      exact ⟨item, List.mem_cons_of_mem _ inside, held⟩

end Files

/-! ### Members that give files -/

/-- Members before others that all give files. -/
theorem forEach_append {members others : List α} (given : members.mapM give = .ok results)
    (rendered : ∀ member ∈ members, ∀ files, give member = .ok files →
      render member = { files, specs := [place member] }) :
    forEach render (members ++ others) =
      Rendering.andThen { files := results.flatten, specs := members.map place }
        (forEach render others) := by
  induction members generalizing results with
  | nil =>
    cases given
    rfl
  | cons member rest inductionHypothesis =>
    rw [List.mapM_cons] at given
    obtain ⟨files, first, given⟩ := bind_eq_ok.mp given
    obtain ⟨more, givenRest, returned⟩ := bind_eq_ok.mp given
    cases returned
    have later := inductionHypothesis givenRest fun other inside =>
      rendered other (List.mem_cons_of_mem _ inside)
    rw [List.cons_append, forEach_cons, rendered member List.mem_cons_self files first, later]
    simp [andThen]

/-- The files of members that all give some stand in a row. -/
theorem forEach_eq {members : List α} (given : members.mapM give = .ok results)
    (rendered : ∀ member ∈ members, ∀ files, give member = .ok files →
      render member = { files, specs := [place member] }) :
    forEach render members = { files := results.flatten, specs := members.map place } := by
  have whole : forEach render (members ++ []) = _ := forEach_append given rendered
  rw [List.append_nil] at whole
  rw [whole]
  show Rendering.andThen _ {} = _
  simp [andThen]

/-- The first member that fails ends the files. -/
theorem forEach_failing {before after : List α} {failing : α} {error : Error}
    (given : before.mapM give = .ok results)
    (rendered : ∀ member ∈ before, ∀ files, give member = .ok files →
      render member = { files, specs := [place member] })
    (fails : render failing = { specs := [place failing], failure := some error }) :
    forEach render (before ++ failing :: after) =
      { files := results.flatten
        specs := (before ++ [failing]).map place
        failure := some error } := by
  rw [forEach_append given rendered, forEach_cons, fails]
  simp [andThen]

end ServiceForge.Project.Rendering
