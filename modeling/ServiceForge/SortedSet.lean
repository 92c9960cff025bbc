/-
This file holds finite sets as ascending lists without repetition.
-/

namespace ServiceForge.SortedSet

variable {α : Type} [LT α] [DecidableLT α] [DecidableEq α]

/-- Adds a member in its place, unless it is there already. -/
def insert (member : α) : List α → List α
  | [] => [member]
  | first :: rest =>
    if member = first then first :: rest
    else if member < first then member :: first :: rest
    else first :: insert member rest

/-- Adds members one after another. -/
def insertAll (members : List α) (set : List α) : List α :=
  members.foldl (fun set member => insert member set) set

/-- The set of the members of a list. -/
def ofList (members : List α) : List α := insertAll members []

/-! ### Membership -/

@[simp] theorem mem_insert {member other : α} {set : List α} :
    other ∈ insert member set ↔ other = member ∨ other ∈ set := by
  induction set with
  | nil => simp [insert]
  | cons first rest inductionHypothesis =>
    unfold insert
    split
    · next same => subst same; simp
    · split
      · simp
      · simp only [List.mem_cons, inductionHypothesis]
        constructor
        · rintro (rfl | rfl | held)
          · exact Or.inr (Or.inl rfl)
          · exact Or.inl rfl
          · exact Or.inr (Or.inr held)
        · rintro (rfl | rfl | held)
          · exact Or.inr (Or.inl rfl)
          · exact Or.inl rfl
          · exact Or.inr (Or.inr held)

@[simp] theorem mem_insertAll {members set : List α} {other : α} :
    other ∈ insertAll members set ↔ other ∈ members ∨ other ∈ set := by
  induction members generalizing set with
  | nil => simp [insertAll]
  | cons first rest inductionHypothesis =>
    have step : insertAll (first :: rest) set = insertAll rest (insert first set) := rfl
    rw [step, inductionHypothesis]
    simp only [mem_insert, List.mem_cons]
    constructor
    · rintro (held | rfl | held)
      · exact Or.inl (Or.inr held)
      · exact Or.inl (Or.inl rfl)
      · exact Or.inr held
    · rintro ((rfl | held) | held)
      · exact Or.inr (Or.inl rfl)
      · exact Or.inl held
      · exact Or.inr (Or.inr held)

end ServiceForge.SortedSet
