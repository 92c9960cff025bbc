/-
This file proves that the resolution ends. Whatever a reference meets in a document,
following it adds it to the references being followed, and inside its target only
references of the document are met. So the nesting is bounded by the number of
references in the document that are not being followed yet, while the nodes between
two of them grow smaller; a run with that budget obeys the rules that have none.

It ends with a document, or with a reference that was met and has no target.
-/

import ServiceForge.Proofs.Reference.Evaluation
import ServiceForge.Proofs.Reference.Outcome

namespace ServiceForge.OpenApi.Reference

/-! ### Rewriting obeys the rules -/

section Obeys

variable {document : Json}

/-- Rewriting a node obeys the rules if following the references that it mentions does, from each
progress in which the same references are being followed. -/
theorem substitute_obeys {recur : String → Resolve Json} (source : Json) (progress : Progress)
    (obeys : ∀ reference after, Mentions source reference →
      after.following = progress.following →
        Follows document reference after (recur reference after)) :
    Rewrites document source progress (substitute recur source progress) := by
  induction source using parts_induction generalizing progress with
  | step source inductionHypothesis =>
    cases named : local? source with
    | some reference =>
      rw [substitute_of_local? recur named]
      exact .reference named (obeys reference progress (.here named) rfl)
    | none =>
      have inTurn : ∀ (sources : List Json) (current : Progress), sources ⊆ parts source →
          current.following = progress.following →
            RewritesAll document sources current (sources.mapM (substitute recur) current) := by
        intro sources
        induction sources with
        | nil => exact fun _ _ _ => .nil
        | cons part rest restHypothesis =>
          intro current inside same
          obtain ⟨isPart, others⟩ := List.cons_subset.mp inside
          have first : Rewrites document part current (substitute recur part current) :=
            inductionHypothesis part isPart current fun reference after mentions following =>
              obeys reference after (mentions_iff.mpr (Or.inr ⟨part, isPart, mentions⟩))
                (following.trans same)
          rw [List.mapM_cons]
          rcases ran : substitute recur part current with reference | ⟨value, middle⟩
          · rw [ran] at first
            rw [run_bind_of_error ran]
            exact .stop first
          · rw [ran] at first
            rw [run_bind_of_ok ran, ← map_eq_pure_bind, run_map]
            exact .next first (restHypothesis middle others (first.meets.1.following.trans same))
      rw [substitute_eq recur named, run_map]
      exact .parts named (inTurn _ progress (List.Subset.refl _) rfl)

variable {budget : Nat} {reference : String} {progress : Progress}

theorem follow_of_kept {value : Json} (held : progress.resolved.get? reference = some value) :
    follow document budget reference progress = .ok (value, progress) := by
  have start : (get : Resolve Progress) progress = .ok (progress, progress) := rfl
  unfold follow
  rw [run_bind_of_ok start]
  simp only [held]
  rfl

theorem follow_of_new (new : progress.resolved.get? reference = none) :
    follow document budget reference progress =
      (if progress.following.contains reference then return node reference
      else
        match budget, target? document reference with
        | budget + 1, some target => do
          modify (·.begin reference)
          let value ← substitute (follow document budget) target
          modify (·.keep reference value)
          return value
        | _, _ => throw reference : Resolve Json) progress := by
  have start : (get : Resolve Progress) progress = .ok (progress, progress) := rfl
  unfold follow
  rw [run_bind_of_ok start]
  simp only [new]
  rfl

/-- Following a reference obeys the rules if it does so, with one less in the budget, for the
references that the target mentions. -/
theorem follow_obeys (enough : reference ∉ progress.following → budget ≠ 0)
    (inside : ∀ smaller target next after, budget = smaller + 1 → reference ∉ progress.following →
      target? document reference = some target → Mentions target next →
        after.following = reference :: progress.following →
          Follows document next after (follow document smaller next after)) :
    Follows document reference progress (follow document budget reference progress) := by
  cases held : progress.resolved.get? reference with
  | some value =>
    rw [follow_of_kept held]
    exact .kept held
  | none =>
    rw [follow_of_new held]
    by_cases followed : reference ∈ progress.following
    · rw [if_pos (List.contains_iff_mem.mpr followed)]
      exact .left held followed
    rw [if_neg (by simpa using followed)]
    obtain ⟨smaller, rfl⟩ := Nat.exists_eq_succ_of_ne_zero (enough followed)
    cases found : target? document reference with
    | none => exact .dangling held followed found
    | some target =>
      have rewritten := substitute_obeys target (progress.begin reference)
        fun next after mentions following =>
          inside smaller target next after rfl followed found mentions following
      refine cast (congrArg _ ?_) (Follows.entered held followed found rewritten)
      show _ = (substitute (follow document smaller) target >>= fun value => do
        modify (·.keep reference value)
        return value : Resolve Json) (progress.begin reference)
      rcases ran : substitute (follow document smaller) target (progress.begin reference)
        with last | ⟨value, middle⟩
      · exact (run_bind_of_error ran).symm
      · rw [run_bind_of_ok ran]
        rfl

/-! ### The budget is enough -/

/-- The references of a document that are not being followed. -/
def unfollowed (document : Json) (following : List String) : List String :=
  (all document).filter (· ∉ following)

theorem length_unfollowed_cons_lt {following : List String} {reference : String}
    (listed : reference ∈ all document) (new : reference ∉ following) :
    (unfollowed document (reference :: following)).length <
      (unfollowed document following).length := by
  have fewer : unfollowed document (reference :: following) =
      (unfollowed document following).filter (· ≠ reference) := by
    rw [unfollowed, unfollowed, List.filter_filter]
    simp [not_or]
  rw [fewer, List.length_filter_lt_length_iff_exists]
  exact ⟨reference, List.mem_filter.mpr ⟨listed, by simpa using new⟩, by simp⟩

/-- A reference of the document is followed by the rules, if the budget covers those that are not
being followed. -/
theorem follow_obeys_of_mem_all (budget : Nat) (reference : String) (progress : Progress)
    (listed : reference ∈ all document)
    (covered : (unfollowed document progress.following).length ≤ budget) :
    Follows document reference progress (follow document budget reference progress) := by
  induction budget generalizing reference progress with
  | zero =>
    have none : unfollowed document progress.following = [] :=
      List.eq_nil_of_length_eq_zero (Nat.le_zero.mp covered)
    have followed : reference ∈ progress.following := by
      by_contra new
      have left : reference ∈ unfollowed document progress.following :=
        List.mem_filter.mpr ⟨listed, by simpa using new⟩
      rw [none] at left
      cases left
    exact follow_obeys (fun new => absurd followed new) nofun
  | succ budget inductionHypothesis =>
    refine follow_obeys (fun _ => Nat.succ_ne_zero budget) ?_
    rintro smaller target next after same new found mentions following
    cases same
    refine inductionHypothesis next after
      (all_subset_of_target found (mem_all_of_mentions mentions)) ?_
    rw [following]
    exact Nat.lt_succ_iff.mp ((length_unfollowed_cons_lt listed new).trans_le covered)

/-- Any reference is followed by the rules, if the budget exceeds the number of references in the
document. -/
theorem follow_obeys_of_lt (large : (all document).length < budget) (reference : String)
    (progress : Progress) :
    Follows document reference progress (follow document budget reference progress) := by
  refine follow_obeys (fun _ => Nat.ne_zero_of_lt large) ?_
  rintro smaller target next after rfl - found mentions following
  refine follow_obeys_of_mem_all smaller next after
    (all_subset_of_target found (mem_all_of_mentions mentions)) ?_
  exact (List.length_filter_le _ _).trans (Nat.lt_succ_iff.mp large)

end Obeys

/-! ### Where the resolution begins -/

/-- The references at which the rewriting of a section of the components begins: those to its
entries, if they are resolved as references to them are. -/
def SectionBegins (name : String) (content : Json) (reference : String) : Prop :=
  match content with
  | .object entries =>
    if sections.contains name then ∃ entry ∈ entries, reference = ofComponent name entry.1
    else Mentions content reference
  | content => Mentions content reference

/-- The references at which the rewriting of a member of the document begins. -/
def MemberBegins (key : String) (value : Json) (reference : String) : Prop :=
  if key = "components" then
    match value with
    | .object content => ∃ entry ∈ content, SectionBegins entry.1 entry.2 reference
    | value => Mentions value reference
  else Mentions value reference

/-- The references at which the resolution of a document begins. -/
def Begins (document : Json) (reference : String) : Prop :=
  match document with
  | .object members => ∃ member ∈ members, MemberBegins member.1 member.2 reference
  | document => Mentions document reference

/-- The references that the resolution of a document meets. -/
def Visited (document : Json) (reference : String) : Prop :=
  ∃ first, Begins document first ∧ Relation.ReflTransGen (Refers document) first reference

theorem isLocal_ofComponent (section_ name : String) : isLocal (ofComponent section_ name) = true := by
  simp [isLocal, Text.startsWith, ofComponent]

theorem isLocal_of_begins {document : Json} {reference : String}
    (begins : Begins document reference) : isLocal reference = true := by
  unfold Begins at begins
  split at begins
  · obtain ⟨member, -, begins⟩ := begins
    unfold MemberBegins at begins
    split at begins
    · split at begins
      · obtain ⟨entry, -, begins⟩ := begins
        unfold SectionBegins at begins
        split at begins
        · split at begins
          · obtain ⟨_, -, rfl⟩ := begins
            exact isLocal_ofComponent _ _
          · exact begins.isLocal
        · exact begins.isLocal
      · exact begins.isLocal
    · exact begins.isLocal
  · exact begins.isLocal

theorem isLocal_of_visited {document : Json} {reference : String}
    (visited : Visited document reference) : isLocal reference = true := by
  obtain ⟨first, begins, leads⟩ := visited
  cases leads with
  | refl => exact isLocal_of_begins begins
  | tail _ last =>
    obtain ⟨_, _, mentions⟩ := last
    exact mentions.isLocal

/-! ### Runs that begin at given references -/

/-- A run that begins at given references, from any progress. -/
def Visits {α : Type} (document : Json) (begins : String → Prop) (run : Resolve α) : Prop :=
  ∀ progress, Meets document begins progress (run progress)

section Visits

variable {α β : Type} {document : Json} {begins more : String → Prop}

theorem Visits.pure (value : α) : Visits document (fun _ => False) (pure value : Resolve α) :=
  fun _ => ⟨.refl _ _, fun _ begun => begun.elim⟩

theorem Visits.map {run : Resolve α} (visits : Visits document begins run) (convert : α → β) :
    Visits document begins (convert <$> run) := by
  intro progress
  rw [run_map]
  exact (visits progress).map convert

/-- Two runs one after another, whose values are put together. -/
theorem Visits.both {γ : Type} {first : Resolve α} {second : Resolve β}
    (visits : Visits document begins first) (further : Visits document more second)
    (convert : α → β → γ) :
    Visits document (fun reference => begins reference ∨ more reference)
      (do return convert (← first) (← second)) := by
  intro progress
  have met := visits progress
  rcases ran : first progress with last | ⟨value, middle⟩
  · rw [ran] at met
    rw [run_bind_of_error ran]
    obtain ⟨start, isStart, dangles⟩ := met
    exact ⟨start, Or.inl isStart, dangles⟩
  · rw [ran] at met
    rw [run_bind_of_ok ran, ← map_eq_pure_bind, run_map]
    exact met.next (further middle) (convert value)

theorem Visits.congr {others : String → Prop} {run : Resolve α}
    (visits : Visits document begins run) (same : ∀ reference, others reference ↔ begins reference) :
    Visits document others run :=
  fun progress => (visits progress).congr same

theorem rewriteEntries_visits {rewrite : String → Json → Resolve Json}
    {begins : String → Json → String → Prop}
    (visits : ∀ key value, Visits document (begins key value) (rewrite key value))
    (entries : List (String × Json)) :
    Visits document (fun reference => ∃ entry ∈ entries, begins entry.1 entry.2 reference)
      (rewriteEntries rewrite entries) := by
  induction entries with
  | nil => exact (Visits.pure []).congr fun reference => by simp
  | cons entry rest inductionHypothesis =>
    exact ((visits entry.1 entry.2).both inductionHypothesis _).congr fun reference =>
      List.exists_mem_cons_iff ..

end Visits

/-! ### The resolution of a document -/

section Document

variable {document : Json} {budget : Nat}

theorem substitute_visits (large : (all document).length < budget) (source : Json) :
    Visits document (Mentions source) (substitute (follow document budget) source) :=
  fun progress => (substitute_obeys source progress fun reference after _ _ =>
    follow_obeys_of_lt large reference after).meets

theorem resolveSection_visits (large : (all document).length < budget) (name : String)
    (content : Json) :
    Visits document (SectionBegins name content) (resolveSection document budget name content) := by
  cases content with
  | object entries =>
    unfold SectionBegins resolveSection
    dsimp only
    split
    · rw [← map_eq_pure_bind, resolveEntries_eq]
      exact (rewriteEntries_visits (fun entry _ => fun progress =>
        (follow_obeys_of_lt large (ofComponent name entry) progress).meets) entries).map _
    · exact substitute_visits large _
  | _ => exact substitute_visits large _

theorem resolveMember_visits (large : (all document).length < budget) (key : String)
    (value : Json) :
    Visits document (MemberBegins key value) (resolveMember document budget key value) := by
  unfold MemberBegins resolveMember
  split
  · cases value with
    | object content =>
      unfold resolveComponents
      dsimp only
      rw [resolveSections_eq, ← map_eq_pure_bind]
      exact (rewriteEntries_visits (resolveSection_visits large) content).map _
    | _ => exact substitute_visits large _
  · exact substitute_visits large _

theorem resolveDocument_visits (large : (all document).length < budget) :
    Visits document (Begins document) (resolveDocument document budget) := by
  cases document with
  | object members =>
    unfold Begins resolveDocument
    dsimp only
    rw [resolveRoot_eq]
    exact (rewriteEntries_visits (resolveMember_visits large) members).map _
  | _ => exact substitute_visits large _

end Document

/-- A failing resolution reports a reference that was met and has no target. -/
theorem visited_of_error {document : Json} {reference : String}
    (failed : resolve document = .error reference) :
    Visited document reference ∧ target? document reference = none := by
  have met := resolveDocument_visits (Nat.lt_succ_self (all document).length) {}
  rw [resolve_eq] at failed
  rcases ran : resolveDocument document ((all document).length + 1) {} with last | result
  · rw [ran] at met failed
    cases failed
    obtain ⟨first, begins, leads, absent⟩ := met
    exact ⟨⟨first, begins, leads⟩, absent⟩
  · rw [ran] at failed
    cases failed

/-- From every reference and every progress the recursion comes to exactly one outcome, which is
that of any budget above the number of references in the document. The resolution, which has such
a budget, comes to a document or to a local reference without a target. -/
theorem resolve_terminates (document : Json) :
    (∀ reference progress, ∃! outcome, Follows document reference progress outcome) ∧
      (∀ budget, (all document).length < budget → ∀ reference progress,
        Follows document reference progress (follow document budget reference progress)) ∧
      ((∃ resolved, resolve document = .ok resolved) ∨
        ∃ reference, resolve document = .error reference ∧ isLocal reference = true ∧
          target? document reference = none) := by
  refine ⟨fun reference progress => ?_, fun budget large => follow_obeys_of_lt large, ?_⟩
  · have ended := follow_obeys_of_lt (Nat.lt_succ_self (all document).length) reference progress
    exact ⟨_, ended, fun outcome other => other.unique ended⟩
  · cases ended : resolve document with
    | ok resolved => exact Or.inl ⟨resolved, rfl⟩
    | error reference =>
      obtain ⟨visited, absent⟩ := visited_of_error ended
      exact Or.inr ⟨reference, rfl, isLocal_of_visited visited, absent⟩

end ServiceForge.OpenApi.Reference
