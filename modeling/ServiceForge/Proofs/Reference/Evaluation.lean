/-
This file gives the resolution as rules, without a bound on how deep references are
followed. A reference with a kept value gives the value, a reference that is being
followed stays as it is, a reference without a target ends the run, and any other is
followed: its target is rewritten part by part, with the reference in progress. A
derivation is finite, so what the rules give an outcome for ends.

The outcome is unique. A run that ends with a value knows all references at which it
began, and keeps the knowledge closed: the references that the target of a kept one
mentions are known too. A run that ends with a reference was led to it from one at
which it began.
-/

import ServiceForge.Proofs.Reference.Parts

namespace ServiceForge.OpenApi.Reference

/-! ### Rules -/

/-- What a run ends with: a value and the progress then, or a reference. -/
abbrev Outcome (α : Type) := Except String (α × Progress)

mutual

/-- The outcome of following a reference. -/
inductive Follows (document : Json) : String → Progress → Outcome Json → Prop
  | kept {reference : String} {progress : Progress} {value : Json} :
      progress.resolved.get? reference = some value →
        Follows document reference progress (.ok (value, progress))
  | left {reference : String} {progress : Progress} :
      progress.resolved.get? reference = none → reference ∈ progress.following →
        Follows document reference progress (.ok (node reference, progress))
  | dangling {reference : String} {progress : Progress} :
      progress.resolved.get? reference = none → reference ∉ progress.following →
        target? document reference = none →
          Follows document reference progress (.error reference)
  | entered {reference : String} {progress : Progress} {target : Json} {outcome : Outcome Json} :
      progress.resolved.get? reference = none → reference ∉ progress.following →
        target? document reference = some target →
          Rewrites document target (progress.begin reference) outcome →
            Follows document reference progress
              (outcome.map fun result => (result.1, result.2.keep reference result.1))

/-- The outcome of rewriting a node. -/
inductive Rewrites (document : Json) : Json → Progress → Outcome Json → Prop
  | reference {source : Json} {reference : String} {progress : Progress} {outcome : Outcome Json} :
      local? source = some reference → Follows document reference progress outcome →
        Rewrites document source progress outcome
  | parts {source : Json} {progress : Progress} {outcome : Outcome (List Json)} :
      local? source = none → RewritesAll document (parts source) progress outcome →
        Rewrites document source progress
          (outcome.map fun result => (rebuild source result.1, result.2))

/-- The outcome of rewriting nodes one after another. -/
inductive RewritesAll (document : Json) : List Json → Progress → Outcome (List Json) → Prop
  | nil {progress : Progress} : RewritesAll document [] progress (.ok ([], progress))
  | stop {source : Json} {rest : List Json} {progress : Progress} {reference : String} :
      Rewrites document source progress (.error reference) →
        RewritesAll document (source :: rest) progress (.error reference)
  | next {source value : Json} {rest : List Json} {progress middle : Progress}
      {outcome : Outcome (List Json)} :
      Rewrites document source progress (.ok (value, middle)) →
        RewritesAll document rest middle outcome →
          RewritesAll document (source :: rest) progress
            (outcome.map fun result => (value :: result.1, result.2))

end

/-! ### Outcomes are unique -/

mutual

theorem Follows.unique {document : Json} {reference : String} {progress : Progress}
    {first second : Outcome Json} (ran : Follows document reference progress first)
    (other : Follows document reference progress second) : first = second := by
  match ran with
  | .kept held =>
    cases other with
    | kept same =>
      cases held.symm.trans same
      rfl
    | left new | dangling new | entered new =>
      rw [held] at new
      cases new
  | .left new followed =>
    cases other with
    | kept held =>
      rw [new] at held
      cases held
    | left => rfl
    | dangling _ fresh | entered _ fresh => exact absurd followed fresh
  | .dangling new fresh absent =>
    cases other with
    | kept held =>
      rw [new] at held
      cases held
    | left _ followed => exact absurd followed fresh
    | dangling => rfl
    | entered _ _ found =>
      rw [absent] at found
      cases found
  | .entered new fresh found inside =>
    cases other with
    | kept held =>
      rw [new] at held
      cases held
    | left _ followed => exact absurd followed fresh
    | dangling _ _ absent =>
      rw [absent] at found
      cases found
    | entered _ _ same otherInside =>
      cases found.symm.trans same
      rw [inside.unique otherInside]

theorem Rewrites.unique {document source : Json} {progress : Progress}
    {first second : Outcome Json} (ran : Rewrites document source progress first)
    (other : Rewrites document source progress second) : first = second := by
  match ran with
  | .reference named inside =>
    cases other with
    | reference same otherInside =>
      cases named.symm.trans same
      exact inside.unique otherInside
    | parts noReference =>
      rw [named] at noReference
      cases noReference
  | .parts noReference inside =>
    cases other with
    | reference named =>
      rw [named] at noReference
      cases noReference
    | parts _ otherInside => rw [inside.unique otherInside]

theorem RewritesAll.unique {document : Json} {sources : List Json} {progress : Progress}
    {first second : Outcome (List Json)} (ran : RewritesAll document sources progress first)
    (other : RewritesAll document sources progress second) : first = second := by
  match ran with
  | .nil =>
    cases other
    rfl
  | .stop failed =>
    cases other with
    | stop otherFailed =>
      cases failed.unique otherFailed
      rfl
    | next ran => cases failed.unique ran
  | .next ran rest =>
    cases other with
    | stop failed => cases ran.unique failed
    | next otherRan otherRest =>
      cases ran.unique otherRan
      rw [rest.unique otherRest]

end

/-! ### What a run meets -/

/-- The references that the target of a kept reference mentions are known. -/
def Closed (document : Json) (progress : Progress) : Prop :=
  ∀ reference, (progress.resolved.get? reference).isSome →
    ∃ target, target? document reference = some target ∧
      ∀ next, Mentions target next → progress.Knows next

/-- What a run that ends with a value leaves of the progress before it. -/
structure Passes (document : Json) (progress after : Progress) : Prop where
  following : after.following = progress.following
  knows : ∀ reference, progress.Knows reference → after.Knows reference
  closed : Closed document progress → Closed document after

namespace Passes

variable {document : Json} {progress middle after : Progress}

theorem refl (document : Json) (progress : Progress) : Passes document progress progress :=
  ⟨rfl, fun _ known => known, id⟩

theorem trans (first : Passes document progress middle) (second : Passes document middle after) :
    Passes document progress after :=
  ⟨second.following.trans first.following,
    fun reference known => second.knows reference (first.knows reference known),
    fun closed => second.closed (first.closed closed)⟩

end Passes

/-- Whether following references leads from one to another that has no target. -/
def Dangles (document : Json) (first last : String) : Prop :=
  Relation.ReflTransGen (Refers document) first last ∧ target? document last = none

/-- What the outcome of a run that begins at some references says of them: they are known, or one
of them leads to the reference that is reported. -/
def Meets {α : Type} (document : Json) (begins : String → Prop) (progress : Progress) :
    Outcome α → Prop
  | .ok (_, after) =>
    Passes document progress after ∧ ∀ reference, begins reference → after.Knows reference
  | .error last => ∃ first, begins first ∧ Dangles document first last

theorem Meets.map {α β : Type} {document : Json} {begins : String → Prop} {progress : Progress}
    {outcome : Outcome α} (meets : Meets document begins progress outcome) (convert : α → β) :
    Meets document begins progress (outcome.map fun result => (convert result.1, result.2)) := by
  cases outcome with
  | error last => exact meets
  | ok result => exact meets

theorem Meets.congr {α : Type} {document : Json} {begins others : String → Prop}
    {progress : Progress} {outcome : Outcome α} (meets : Meets document begins progress outcome)
    (same : ∀ reference, others reference ↔ begins reference) :
    Meets document others progress outcome := by
  have equal : others = begins := funext fun reference => propext (same reference)
  exact equal ▸ meets

/-- A run that is made of two runs. -/
theorem Meets.next {α β γ : Type} {document : Json} {begins more : String → Prop}
    {progress middle : Progress} {value : α} {outcome : Outcome β}
    (first : Meets document begins progress (.ok (value, middle) : Outcome α))
    (second : Meets document more middle outcome) (convert : β → γ) :
    Meets document (fun reference => begins reference ∨ more reference) progress
      (outcome.map fun result => (convert result.1, result.2)) := by
  cases outcome with
  | error last =>
    obtain ⟨start, isStart, dangles⟩ := second
    exact ⟨start, Or.inr isStart, dangles⟩
  | ok result =>
    refine ⟨first.1.trans second.1, ?_⟩
    rintro reference (early | late)
    · exact second.1.knows reference (first.2 reference early)
    · exact second.2 reference late

/-- Keeping the value of a reference whose target was rewritten. -/
theorem Passes.keep {document target value : Json} {progress middle : Progress}
    {reference : String} (passes : Passes document (progress.begin reference) middle)
    (found : target? document reference = some target)
    (met : ∀ next, Mentions target next → middle.Knows next) :
    Passes document progress (middle.keep reference value) where
  following := keep_following passes.following
  knows := fun other known => keep_knows passes.following other
    (passes.knows other (known.imp_left (List.mem_cons_of_mem reference)))
  closed := by
    intro closed other held
    have begun : Closed document (progress.begin reference) := fun kept isKept => by
      obtain ⟨itsTarget, isTarget, known⟩ := closed kept isKept
      exact ⟨itsTarget, isTarget, fun next mentions =>
        (known next mentions).imp_left (List.mem_cons_of_mem reference)⟩
    rw [Progress.keep, OrderedMap.get?_insert] at held
    by_cases same : other = reference
    · exact ⟨target, same ▸ found, fun next mentions =>
        keep_knows passes.following next (met next mentions)⟩
    · rw [if_neg same] at held
      obtain ⟨itsTarget, isTarget, known⟩ := passes.closed begun other held
      exact ⟨itsTarget, isTarget, fun next mentions =>
        keep_knows passes.following next (known next mentions)⟩

mutual

theorem Follows.meets {document : Json} {reference : String} {progress : Progress}
    {outcome : Outcome Json} (ran : Follows document reference progress outcome) :
    Meets document (· = reference) progress outcome := by
  match ran with
  | .kept held =>
    refine ⟨.refl _ _, ?_⟩
    rintro _ rfl
    exact Or.inr (Option.isSome_iff_exists.mpr ⟨_, held⟩)
  | .left _ followed =>
    refine ⟨.refl _ _, ?_⟩
    rintro _ rfl
    exact Or.inl followed
  | .dangling _ _ absent => exact ⟨reference, rfl, .refl, absent⟩
  | @Follows.entered _ _ _ _ inner _ _ found inside =>
    have met := inside.meets
    cases inner with
    | error last =>
      obtain ⟨first, mentions, leads, absent⟩ := met
      exact ⟨reference, rfl, .head ⟨_, found, mentions⟩ leads, absent⟩
    | ok result =>
      refine ⟨met.1.keep found met.2, ?_⟩
      rintro _ rfl
      refine Or.inr ?_
      simp only [Progress.keep, OrderedMap.get?_insert, if_true]
      rfl

theorem Rewrites.meets {document source : Json} {progress : Progress} {outcome : Outcome Json}
    (ran : Rewrites document source progress outcome) :
    Meets document (Mentions source) progress outcome := by
  match ran with
  | .reference named inside =>
    refine inside.meets.congr fun reference => ?_
    constructor
    · intro mentions
      rcases mentions_iff.mp mentions with same | ⟨part, isPart, -⟩
      · exact Option.some.inj (same.symm.trans named)
      · rw [parts_of_local? named] at isPart
        cases isPart
    · rintro rfl
      exact .here named
  | .parts noReference inside =>
    refine (inside.meets.map (rebuild source)).congr fun reference => ?_
    rw [mentions_iff, noReference]
    exact or_iff_right nofun

theorem RewritesAll.meets {document : Json} {sources : List Json} {progress : Progress}
    {outcome : Outcome (List Json)} (ran : RewritesAll document sources progress outcome) :
    Meets document (fun reference => ∃ source ∈ sources, Mentions source reference) progress
      outcome := by
  match ran with
  | .nil => exact ⟨.refl _ _, fun _ ⟨_, isSource, _⟩ => by cases isSource⟩
  | .stop failed =>
    obtain ⟨first, mentions, dangles⟩ := failed.meets
    exact ⟨first, ⟨_, List.mem_cons_self, mentions⟩, dangles⟩
  | .next ran rest =>
    exact (ran.meets.next rest.meets _).congr fun reference => List.exists_mem_cons_iff ..

end

end ServiceForge.OpenApi.Reference
