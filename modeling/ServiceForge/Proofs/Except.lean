/-
This file says what the success of a computation that may fail says of its parts: of
two computations one after another, and of one for each item of a list.
-/

import Mathlib.Data.List.Forall2

namespace ServiceForge

variable {ε α β : Type}

theorem bind_eq_ok {first : Except ε α} {next : α → Except ε β} {result : β} :
    (first >>= next) = .ok result ↔ ∃ value, first = .ok value ∧ next value = .ok result := by
  constructor
  · intro ok
    cases first with
    | error problem => cases ok
    | ok value => exact ⟨value, rfl, ok⟩
  · rintro ⟨value, rfl, ok⟩
    exact ok

theorem bind_eq_error {first : Except ε α} {next : α → Except ε β} {problem : ε} :
    (first >>= next) = .error problem ↔
      first = .error problem ∨ ∃ value, first = .ok value ∧ next value = .error problem := by
  constructor
  · intro failed
    cases first with
    | error reason =>
      cases failed
      exact Or.inl rfl
    | ok value => exact Or.inr ⟨value, rfl, failed⟩
  · rintro (rfl | ⟨value, rfl, failed⟩)
    · rfl
    · exact failed

theorem bind_congr_of_ok {first : Except ε α} {next other : α → Except ε β}
    (same : ∀ value, first = .ok value → next value = other value) :
    (first >>= next) = (first >>= other) := by
  cases first with
  | error problem => rfl
  | ok value => exact same value rfl

theorem mapError_eq_ok {ζ : Type} {change : ε → ζ} {result : Except ε α} {value : α} :
    result.mapError change = .ok value ↔ result = .ok value := by
  cases result <;> simp [Except.mapError]

theorem mapError_eq_error {ζ : Type} {change : ε → ζ} {result : Except ε α} {problem : ζ} :
    result.mapError change = .error problem ↔
      ∃ cause, result = .error cause ∧ change cause = problem := by
  cases result <;> simp [Except.mapError]

theorem map_eq_ok {change : α → β} {result : Except ε α} {value : β} :
    result.map change = .ok value ↔ ∃ given, result = .ok given ∧ change given = value := by
  cases result <;> simp [Except.map]

theorem toOption_eq_some {result : Except ε α} {value : α} :
    result.toOption = some value ↔ result = .ok value := by
  cases result <;> simp [Except.toOption]

section Items

variable {convert : α → Except ε β} {items : List α} {results : List β}

theorem mem_mapM (ok : items.mapM convert = .ok results) {result : β} :
    result ∈ results ↔ ∃ item ∈ items, convert item = .ok result := by
  induction items generalizing results with
  | nil =>
    cases ok
    simp
  | cons item rest inductionHypothesis =>
    rw [List.mapM_cons] at ok
    obtain ⟨first, converted, ok⟩ := bind_eq_ok.mp ok
    obtain ⟨others, convertedRest, returned⟩ := bind_eq_ok.mp ok
    cases returned
    simp [inductionHypothesis convertedRest, converted, eq_comm]

theorem converts_of_mapM (ok : items.mapM convert = .ok results) {item : α} (member : item ∈ items) :
    ∃ result, convert item = .ok result := by
  induction items generalizing results with
  | nil => cases member
  | cons first rest inductionHypothesis =>
    rw [List.mapM_cons] at ok
    obtain ⟨result, converted, ok⟩ := bind_eq_ok.mp ok
    obtain ⟨others, convertedRest, -⟩ := bind_eq_ok.mp ok
    rcases List.mem_cons.mp member with rfl | later
    · exact ⟨result, converted⟩
    · exact inductionHypothesis convertedRest later

theorem mapM_congr {other : α → Except ε β} (same : ∀ item ∈ items, convert item = other item) :
    items.mapM convert = items.mapM other := by
  induction items with
  | nil => rfl
  | cons item rest inductionHypothesis =>
    obtain ⟨first, others⟩ := List.forall_mem_cons.mp same
    rw [List.mapM_cons, List.mapM_cons, first, inductionHypothesis others]

/-- The results are in the order of the items. -/
theorem getElem?_mapM (ok : items.mapM convert = .ok results) {position : Nat} {item : α}
    (found : items[position]? = some item) :
    ∃ result, results[position]? = some result ∧ convert item = .ok result := by
  induction items generalizing results position with
  | nil => cases found
  | cons first rest inductionHypothesis =>
    rw [List.mapM_cons] at ok
    obtain ⟨result, converted, ok⟩ := bind_eq_ok.mp ok
    obtain ⟨others, convertedRest, returned⟩ := bind_eq_ok.mp ok
    cases returned
    cases position with
    | zero =>
      cases found
      exact ⟨result, rfl, converted⟩
    | succ position => exact inductionHypothesis convertedRest found

/-- What is seen of the results, if it is known for each item. -/
theorem map_eq_map_of_mapM {γ : Type} {view : β → γ} {give : α → γ}
    (each : ∀ {item result}, convert item = .ok result → view result = give item)
    (ok : items.mapM convert = .ok results) : results.map view = items.map give := by
  induction items generalizing results with
  | nil =>
    cases ok
    rfl
  | cons item rest inductionHypothesis =>
    rw [List.mapM_cons] at ok
    obtain ⟨result, converted, ok⟩ := bind_eq_ok.mp ok
    obtain ⟨others, convertedRest, returned⟩ := bind_eq_ok.mp ok
    cases returned
    rw [List.map_cons, List.map_cons, each converted, inductionHypothesis convertedRest]

/-- A conversion that can be taken back, item by item. -/
theorem map_of_mapM {back : β → α} (each : ∀ {item result}, convert item = .ok result → back result = item)
    (ok : items.mapM convert = .ok results) : results.map back = items := by
  have whole : results.map back = items.map id := map_eq_map_of_mapM each ok
  rw [whole, List.map_id]

/-- Results that are listed with their items are found by them. -/
theorem lookup_of_mapM [BEq α] [LawfulBEq α] {pairs : List (α × β)}
    (ok : (items.mapM fun item => do return (item, ← convert item)) = .ok pairs) {item : α}
    (member : item ∈ items) : ∃ result, pairs.lookup item = some result ∧ convert item = .ok result := by
  induction items generalizing pairs with
  | nil => cases member
  | cons first rest inductionHypothesis =>
    rw [List.mapM_cons] at ok
    obtain ⟨pair, paired, ok⟩ := bind_eq_ok.mp ok
    obtain ⟨others, pairedRest, returned⟩ := bind_eq_ok.mp ok
    obtain ⟨result, converted, same⟩ := bind_eq_ok.mp paired
    cases returned
    cases same
    by_cases here : item = first
    · subst here
      exact ⟨result, List.lookup_cons_self, converted⟩
    · have apart : (item == first) = false := beq_eq_false_iff_ne.mpr here
      rw [List.lookup_cons, apart]
      exact inductionHypothesis pairedRest ((List.mem_cons.mp member).resolve_left here)

/-- Items that are related one by one are converted to results one beside the other. -/
theorem forall₂_of_mapM {γ δ : Type} {R : α → γ → Prop} {others : List γ}
    {convertOther : γ → Except ε δ} {otherResults : List δ} (related : List.Forall₂ R items others)
    (ok : items.mapM convert = .ok results)
    (okOther : others.mapM convertOther = .ok otherResults) :
    List.Forall₂ (fun result otherResult => ∃ item ∈ items, ∃ other, R item other ∧
      convert item = .ok result ∧ convertOther other = .ok otherResult) results otherResults := by
  induction related generalizing results otherResults with
  | nil =>
    cases ok
    cases okOther
    exact .nil
  | @cons item other items others holds _ inductionHypothesis =>
    rw [List.mapM_cons] at ok okOther
    obtain ⟨result, converted, ok⟩ := bind_eq_ok.mp ok
    obtain ⟨rest, convertedRest, returned⟩ := bind_eq_ok.mp ok
    obtain ⟨otherResult, convertedOther, okOther⟩ := bind_eq_ok.mp okOther
    obtain ⟨otherRest, convertedOthers, returnedOther⟩ := bind_eq_ok.mp okOther
    cases returned
    cases returnedOther
    refine .cons ⟨item, List.mem_cons_self, other, holds, converted, convertedOther⟩ ?_
    refine (inductionHypothesis convertedRest convertedOthers).imp ?_
    rintro _ _ ⟨earlier, member, later⟩
    exact ⟨earlier, List.mem_cons_of_mem _ member, later⟩

/-- A conversion that never fails on the items converts them one by one. -/
theorem mapM_eq_ok_map {give : α → β} (each : ∀ item ∈ items, convert item = .ok (give item)) :
    items.mapM convert = .ok (items.map give) := by
  induction items with
  | nil => rfl
  | cons item rest inductionHypothesis =>
    obtain ⟨first, others⟩ := List.forall_mem_cons.mp each
    rw [List.mapM_cons, first, inductionHypothesis others]
    rfl

end Items

end ServiceForge
