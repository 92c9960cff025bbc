/-
This file proves what a schema finds when it asks for a name. Candidates for a name
are distinct, so among one more candidate than names in use one is free: a new name
is never in use. A name that is not new belongs to a type with an equal schema,
declared or in progress. The search for the name of a type ends at the first candidate
that is free or stands for an equal schema; there is one such candidate only, so a later
search finds the same name. The search for the name of a field or variant ends at the first
name that is not taken, since each step makes the name longer. The bounds on the number of
steps play no part in either.
-/

import Mathlib.Data.List.Nodup
import Mathlib.Data.List.Perm.Subperm
import Mathlib.Logic.Function.Iterate
import Std.Data.String.ToNat
import ServiceForge.Lowering.State

namespace ServiceForge.Lowering

open ServiceForge.OpenApi (Schema)

/-! ### Names in use -/

namespace State

/-- The names in use with the schemas they stand for; names in progress go first. -/
def entries (state : State) : List (String × Schema) :=
  state.inProgress ++ state.declared.map fun declared => (declared.subtype.name, declared.origin)

/-- The names in use: those of declared types and of types in progress. -/
def names (state : State) : List String := state.entries.map Prod.fst

/-- The names in use are those in progress and those that are declared. -/
theorem names_eq (state : State) :
    state.names = state.inProgress.map Prod.fst ++
      state.declared.map fun declared => declared.subtype.name := by
  simp [names, entries, Function.comp_def]

theorem length_names (state : State) :
    state.names.length = state.inProgress.length + state.declared.length := by
  simp [names_eq]

theorem lookup_declared (declared : List Declared) (name : String) :
    List.lookup name (declared.map fun declared => (declared.subtype.name, declared.origin)) =
      (declared.find? (·.subtype.name = name)).map Declared.origin := by
  induction declared with
  | nil => rfl
  | cons first rest inductionHypothesis =>
    by_cases same : first.subtype.name = name
    · simp [same]
    · have different : (name == first.subtype.name) = false := by simpa using Ne.symm same
      simpa [List.lookup_cons, same, different] using inductionHypothesis

theorem origin?_eq (state : State) (name : String) :
    state.origin? name = state.entries.lookup name := by
  unfold origin? entries
  rw [List.lookup_append, lookup_declared]

/-- A name stands for a schema exactly if it is in use. -/
theorem isSome_origin? (state : State) (name : String) :
    (state.origin? name).isSome = true ↔ name ∈ state.names := by
  rw [origin?_eq]
  exact OrderedMap.isSome_get? state.entries name

end State

/-! ### Candidates -/

/-- The candidates for a hint are distinct. -/
theorem candidate_injective (base : String) : Function.Injective (candidate base) := by
  intro first second same
  unfold candidate at same
  have shown : ∀ index : Nat, base ++ toString (index + 1) ≠ base := by
    intro index unchanged
    have empty : toString (index + 1) = "" :=
      String.append_right_inj base |>.mp (unchanged.trans (String.append_empty).symm)
    exact Nat.repr_ne_empty empty
  split at same
  · split at same
    · omega
    · exact absurd same.symm (shown second)
  · split at same
    · exact absurd same (shown first)
    · have numbers : (first + 1).repr = (second + 1).repr :=
        String.append_right_inj base |>.mp same
      exact Nat.succ.inj (Nat.repr_inj.mp numbers)

/-- Among more candidates than names one is not in use. -/
theorem exists_candidate_notMem (base : String) (names : List String) :
    ∃ index, index ≤ names.length ∧ candidate base index ∉ names := by
  by_contra none
  have used : ∀ index, index ≤ names.length → candidate base index ∈ names := by
    intro index bounded
    by_contra free
    exact none ⟨index, bounded, free⟩
  have distinct : ((List.range (names.length + 1)).map (candidate base)).Nodup :=
    List.nodup_range.map (candidate_injective base)
  have subset : (List.range (names.length + 1)).map (candidate base) ⊆ names := by
    intro name member
    obtain ⟨index, inside, rfl⟩ := List.mem_map.mp member
    exact used index (Nat.lt_succ_iff.mp (List.mem_range.mp inside))
  have length := (List.subperm_of_subset distinct subset).length_le
  rw [List.length_map, List.length_range] at length
  omega

/-! ### Claims -/

/-- What is known when a schema has asked for a name. -/
def Claim.Holds (state : State) (schema : Schema) : Claim → Prop
  | .new name => name ∉ state.names
  | .existing name =>
    ∃ declared ∈ state.declared, declared.subtype.name = name ∧
      declared.origin.equal schema = true
  | .forward name =>
    ∃ origin, (name, origin) ∈ state.inProgress ∧ origin.equal schema = true

section Claims

variable {state : State} {hint name : String} {schema : Schema}

/-- With enough steps a claim is what it says it is. -/
theorem claimFrom_holds (state : State) (base : String) (schema : Schema) (steps index : Nat)
    (enough : state.names.length ≤ steps + index)
    (used : ∀ earlier < index, candidate base earlier ∈ state.names) :
    (claimFrom state base schema steps index).Holds state schema := by
  induction steps generalizing index with
  | zero =>
    show candidate base index ∉ state.names
    intro member
    obtain ⟨free, bounded, notUsed⟩ := exists_candidate_notMem base state.names
    rcases Nat.lt_or_ge free index with earlier | later
    · exact notUsed (used free earlier)
    · have last : free = index := by omega
      exact notUsed (last ▸ member)
  | succ steps inductionHypothesis =>
    unfold claimFrom
    cases found : state.origin? (candidate base index) with
    | none =>
      simp only [found]
      intro member
      have inUse := (state.isSome_origin? _).mpr member
      rw [found] at inUse
      cases inUse
    | some origin =>
      simp only [found]
      by_cases same : origin.equal schema = true
      · rw [if_pos same]
        unfold State.origin? at found
        unfold State.isInProgress
        cases pending : state.inProgress.lookup (candidate base index) with
        | none =>
          simp only [pending, Option.none_or, Option.map_eq_some_iff] at found
          obtain ⟨declared, first, rfl⟩ := found
          exact ⟨declared, List.mem_of_find?_eq_some first,
            by simpa using List.find?_some first, same⟩
        | some other =>
          simp only [pending, Option.some_or, Option.some.injEq] at found
          subst found
          exact ⟨other, by
            obtain ⟨before, after, whole, _⟩ := List.lookup_eq_some_iff.mp pending
            simp [whole], same⟩
      · rw [if_neg same]
        refine inductionHypothesis (index + 1) (by omega) ?_
        intro earlier before
        rcases Nat.lt_succ_iff_lt_or_eq.mp before with less | rfl
        · exact used earlier less
        · exact (state.isSome_origin? _).mp (by rw [found]; rfl)

/-- Each claim is what it says it is. -/
theorem claim_holds (state : State) (hint : String) (schema : Schema) :
    (claim state hint schema).Holds state schema :=
  claimFrom_holds _ _ _ _ _ (by rw [State.length_names]; omega)
    fun _ before => absurd before (Nat.not_lt_zero _)

/-- A name that is claimed as new is not in use. -/
theorem claim_new (claimed : claim state hint schema = .new name) : name ∉ state.names := by
  have holds := claim_holds state hint schema
  rw [claimed] at holds
  exact holds

/-- An existing name is declared for an equal schema. -/
theorem claim_existing (claimed : claim state hint schema = .existing name) :
    ∃ declared ∈ state.declared, declared.subtype.name = name ∧
      declared.origin.equal schema = true := by
  have holds := claim_holds state hint schema
  rw [claimed] at holds
  exact holds

/-- A name that is referred to forward is in progress for an equal schema. -/
theorem claim_forward (claimed : claim state hint schema = .forward name) :
    ∃ origin, (name, origin) ∈ state.inProgress ∧ origin.equal schema = true := by
  have holds := claim_holds state hint schema
  rw [claimed] at holds
  exact holds

end Claims

/-! ### Names of types -/

/-- The candidate at which the search for a name ends: it is free or stands for an equal schema,
and those before it stand for other schemas. -/
structure EndsAt (state : State) (base : String) (schema : Schema) (index : Nat) : Prop where
  before : ∀ earlier < index, ∃ origin,
    state.origin? (candidate base earlier) = some origin ∧ origin.equal schema = false
  last : ∀ origin, state.origin? (candidate base index) = some origin →
    origin.equal schema = true

/-- What is found at the candidate where the search ends. -/
def State.claimAt (state : State) (name : String) : Claim :=
  match state.origin? name with
  | none => .new name
  | some _ => if state.isInProgress name then .forward name else .existing name

/-- The search ends at one candidate only. -/
theorem EndsAt.unique {state : State} {base : String} {schema : Schema} {first second : Nat}
    (left : EndsAt state base schema first) (right : EndsAt state base schema second) :
    first = second := by
  have notBefore : ∀ {last index}, EndsAt state base schema last →
      EndsAt state base schema index → ¬ last < index := by
    intro last index ends later less
    obtain ⟨origin, found, different⟩ := later.before last less
    rw [ends.last origin found] at different
    cases different
  exact Nat.le_antisymm (Nat.not_lt.mp (notBefore right left)) (Nat.not_lt.mp (notBefore left right))

/-- With enough steps a claim ends at the first candidate that is free or fits. -/
theorem claimFrom_endsAt (state : State) (base : String) (schema : Schema) (steps index : Nat)
    (enough : state.names.length ≤ steps + index)
    (before : ∀ earlier < index, ∃ origin,
      state.origin? (candidate base earlier) = some origin ∧ origin.equal schema = false) :
    ∃ last, EndsAt state base schema last ∧
      claimFrom state base schema steps index = state.claimAt (candidate base last) := by
  induction steps generalizing index with
  | zero =>
    have holds := claimFrom_holds state base schema 0 index enough fun earlier less => by
      obtain ⟨origin, found, -⟩ := before earlier less
      exact (state.isSome_origin? _).mp (by rw [found]; rfl)
    have free : state.origin? (candidate base index) = none :=
      Option.not_isSome_iff_eq_none.mp fun inUse => holds ((state.isSome_origin? _).mp inUse)
    refine ⟨index, ⟨before, fun origin found => ?_⟩, ?_⟩
    · cases free.symm.trans found
    · rw [State.claimAt, free]
      rfl
  | succ steps inductionHypothesis =>
    unfold claimFrom
    cases found : state.origin? (candidate base index) with
    | none =>
      simp only [found]
      refine ⟨index, ⟨before, fun origin same => ?_⟩, ?_⟩
      · cases found.symm.trans same
      · rw [State.claimAt, found]
    | some origin =>
      simp only [found]
      by_cases same : origin.equal schema = true
      · rw [if_pos same]
        refine ⟨index, ⟨before, fun other isOther => ?_⟩, ?_⟩
        · cases found.symm.trans isOther
          exact same
        · rw [State.claimAt, found]
      · rw [if_neg same]
        refine inductionHypothesis (index + 1) (by omega) fun earlier less => ?_
        rcases Nat.lt_succ_iff_lt_or_eq.mp less with below | rfl
        · exact before earlier below
        · exact ⟨origin, found, by simpa using same⟩

/-- A claim is what is found where the search for its name ends. -/
theorem claim_endsAt (state : State) (hint : String) (schema : Schema) :
    ∃ index, EndsAt state (Naming.typeName hint) schema index ∧
      claim state hint schema = state.claimAt (candidate (Naming.typeName hint) index) :=
  claimFrom_endsAt _ _ _ _ _ (by rw [State.length_names]; omega)
    fun _ less => absurd less (Nat.not_lt_zero _)

theorem EndsAt.claim_eq {state : State} {hint : String} {schema : Schema} {index : Nat}
    (ends : EndsAt state (Naming.typeName hint) schema index) :
    claim state hint schema = state.claimAt (candidate (Naming.typeName hint) index) := by
  obtain ⟨other, endsOther, claimed⟩ := claim_endsAt state hint schema
  rw [claimed, endsOther.unique ends]

/-- A claim depends on which names are in use, each for an equal schema or for another one, and on
which of them are in progress. -/
theorem claim_congr {left right : State} {hint : String} {first second : Schema}
    (origins : ∀ name, (left.origin? name).map (fun origin => origin.equal first) =
      (right.origin? name).map fun origin => origin.equal second)
    (inProgress : ∀ name, left.isInProgress name = right.isInProgress name) :
    claim left hint first = claim right hint second := by
  obtain ⟨index, ends, claimed⟩ := claim_endsAt left hint first
  have endsToo : EndsAt right (Naming.typeName hint) second index := by
    refine ⟨fun earlier less => ?_, fun origin found => ?_⟩
    · obtain ⟨origin, found, different⟩ := ends.before earlier less
      have other := origins (candidate (Naming.typeName hint) earlier)
      rw [found, Option.map_some, different] at other
      exact Option.map_eq_some_iff.mp other.symm
    · have other := origins (candidate (Naming.typeName hint) index)
      rw [found, Option.map_some] at other
      obtain ⟨own, foundOwn, same⟩ := Option.map_eq_some_iff.mp other
      exact same.symm.trans (ends.last own foundOwn)
  have inUse := congrArg Option.isSome (origins (candidate (Naming.typeName hint) index))
  rw [Option.isSome_map, Option.isSome_map] at inUse
  rw [claimed, endsToo.claim_eq, State.claimAt, State.claimAt, inProgress]
  revert inUse
  cases left.origin? (candidate (Naming.typeName hint) index) <;>
    cases right.origin? (candidate (Naming.typeName hint) index) <;> simp

/-! ### Names of fields and variants -/

theorem length_lt_append {suffix : String} (visible : suffix ≠ "") (name : String) :
    name.length < (name ++ suffix).length := by
  have positive : suffix.length ≠ 0 := fun empty => visible (String.length_eq_zero_iff.mp empty)
  rw [String.length_append]
  omega

/-- The taken names that a name can still become: those that are not shorter. -/
def notShorter (taken : List String) (name : String) : List String :=
  taken.filter fun other => name.length ≤ other.length

theorem length_notShorter_lt {taken : List String} {suffix name : String} (visible : suffix ≠ "")
    (isTaken : name ∈ taken) :
    (notShorter taken (name ++ suffix)).length < (notShorter taken name).length := by
  have longer := length_lt_append visible name
  have fewer : notShorter taken (name ++ suffix) =
      (notShorter taken name).filter fun other => (name ++ suffix).length ≤ other.length := by
    unfold notShorter
    rw [List.filter_filter]
    refine List.filter_congr fun other _ => ?_
    rw [Bool.eq_iff_iff, Bool.and_eq_true, decide_eq_true_iff, decide_eq_true_iff]
    omega
  rw [fewer, List.length_filter_lt_length_iff_exists]
  refine ⟨name, List.mem_filter.mpr ⟨isTaken, decide_eq_true (Nat.le_refl _)⟩, ?_⟩
  rw [decide_eq_true_iff]
  omega

/-- With enough steps a fresh name is found by appending the suffix some number of times. -/
theorem freshFrom_endsAt {taken : List String} {suffix : String} (visible : suffix ≠ "")
    (steps : Nat) (name : String) (enough : (notShorter taken name).length ≤ steps) :
    ∃ count, freshFrom steps taken suffix name = (· ++ suffix)^[count] name ∧
      (· ++ suffix)^[count] name ∉ taken ∧
        ∀ earlier < count, (· ++ suffix)^[earlier] name ∈ taken := by
  induction steps generalizing name with
  | zero =>
    have free : name ∉ taken := fun isTaken =>
      Nat.not_lt_zero _ (Nat.lt_of_lt_of_le (length_notShorter_lt visible isTaken) enough)
    exact ⟨0, rfl, free, fun earlier less => absurd less (Nat.not_lt_zero _)⟩
  | succ steps inductionHypothesis =>
    unfold freshFrom
    by_cases isTaken : name ∈ taken
    · have fewer := length_notShorter_lt visible isTaken
      obtain ⟨count, found, free, before⟩ := inductionHypothesis (name ++ suffix) (by omega)
      rw [if_pos (List.contains_iff_mem.mpr isTaken)]
      refine ⟨count + 1, found, free, fun earlier less => ?_⟩
      cases earlier with
      | zero => exact isTaken
      | succ earlier => exact before earlier (Nat.lt_of_succ_lt_succ less)
    · rw [if_neg fun contains => isTaken (List.contains_iff_mem.mp contains)]
      exact ⟨0, rfl, isTaken, fun earlier less => absurd less (Nat.not_lt_zero _)⟩

/-- The first name that is not taken, among those that arise by appending a suffix. -/
theorem fresh_endsAt (taken : List String) {suffix : String} (visible : suffix ≠ "")
    (name : String) :
    ∃ count, fresh taken suffix name = (· ++ suffix)^[count] name ∧
      (· ++ suffix)^[count] name ∉ taken ∧
        ∀ earlier < count, (· ++ suffix)^[earlier] name ∈ taken :=
  freshFrom_endsAt visible _ name (List.length_filter_le _ _)

/-- A fresh name is not taken. -/
theorem fresh_notMem (taken : List String) {suffix : String} (visible : suffix ≠ "")
    (name : String) : fresh taken suffix name ∉ taken := by
  obtain ⟨count, found, free, -⟩ := fresh_endsAt taken visible name
  exact found ▸ free

/-- The search ends at a name that does not end with the suffix only if it begins there and the name
is free. -/
theorem fresh_eq_iff {taken : List String} {suffix name other : String} (visible : suffix ≠ "")
    (bare : ∀ base, base ++ suffix ≠ name) :
    fresh taken suffix other = name ↔ other = name ∧ name ∉ taken := by
  obtain ⟨count, found, free, before⟩ := fresh_endsAt taken visible other
  rw [found]
  cases count with
  | zero =>
    constructor
    · rintro rfl
      exact ⟨rfl, free⟩
    · exact fun same => same.1
  | succ count =>
    rw [Function.iterate_succ_apply']
    constructor
    · exact fun same => absurd same (bare _)
    · rintro ⟨rfl, absent⟩
      exact absurd (before 0 (Nat.succ_pos count)) absent

end ServiceForge.Lowering
