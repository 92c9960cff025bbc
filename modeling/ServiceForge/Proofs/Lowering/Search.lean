/-
This file proves that the search for borrowed text is exact. What is entered in one
place is not searched again in another, so a search without success tells nothing
about a type alone; but when it ends, every type that was entered leads only to types
that were entered, and none of them holds text.
-/

import Mathlib.Logic.Relation
import Mathlib.Data.List.Basic
import ServiceForge.Lowering.Rendering

namespace ServiceForge.Lowering

/-! ### Descent -/

/-- What lies directly inside a type: its argument, or a member of the type that is declared under
its name. -/
inductive Descends (types : Types) : ValueType → ValueType → Prop
  | list {item : ValueType} : Descends types (.list item) item
  | commaSeparated {item : ValueType} : Descends types (.commaSeparated item) item
  | map {value : ValueType} : Descends types (.map value) value
  | optional {inner : ValueType} : Descends types (.optional inner) inner
  | boxed {inner : ValueType} : Descends types (.boxed inner) inner
  | member {name : String} {subtype : Subtype} {type : ValueType} :
      types.subtype? name = some subtype → type ∈ subtype.memberTypes →
        Descends types (.named name) type

/-- Whether text lies in a type, any number of steps inside. -/
def ReachesText (types : Types) (type : ValueType) : Prop :=
  Relation.ReflTransGen (Descends types) type .text

theorem Descends.reachesText {types : Types} {outer inner : ValueType}
    (descends : Descends types outer inner) (reaches : ReachesText types inner) :
    ReachesText types outer :=
  Relation.ReflTransGen.head descends reaches

/-! ### Entered types -/

/-- Whether a type holds no text and only names that were entered. -/
def Covered (entered : List String) : ValueType → Prop
  | .text => False
  | .list item => Covered entered item
  | .commaSeparated item => Covered entered item
  | .map value => Covered entered value
  | .optional inner => Covered entered inner
  | .boxed inner => Covered entered inner
  | .named name => name ∈ entered
  | _ => True

theorem Covered.mono {entered more : List String} {type : ValueType}
    (covered : Covered entered type) (kept : entered ⊆ more) : Covered more type := by
  induction type with
  | list _ inductionHypothesis => exact inductionHypothesis covered
  | commaSeparated _ inductionHypothesis => exact inductionHypothesis covered
  | map _ inductionHypothesis => exact inductionHypothesis covered
  | optional _ inductionHypothesis => exact inductionHypothesis covered
  | boxed _ inductionHypothesis => exact inductionHypothesis covered
  | named name => exact kept covered
  | _ => exact covered

/-- Whether the members of the type declared under a name are covered. -/
def MembersCovered (types : Types) (entered : List String) (name : String) : Prop :=
  ∀ subtype, types.subtype? name = some subtype →
    ∀ type ∈ subtype.memberTypes, Covered entered type

theorem MembersCovered.mono {types : Types} {entered more : List String} {name : String}
    (settled : MembersCovered types entered name) (kept : entered ⊆ more) :
    MembersCovered types more name :=
  fun subtype found type member => (settled subtype found type member).mono kept

/-- Once all names that were entered are settled, no text lies in a covered type. -/
theorem Covered.not_reachesText {types : Types} {entered : List String} {type : ValueType}
    (settled : ∀ name ∈ entered, MembersCovered types entered name)
    (covered : Covered entered type) : ¬ ReachesText types type := by
  have inside : ∀ {inner : ValueType}, Relation.ReflTransGen (Descends types) type inner →
      Covered entered inner := by
    intro inner path
    induction path with
    | refl => exact covered
    | tail _ descends inductionHypothesis =>
      cases descends with
      | member found member => exact settled _ inductionHypothesis _ found _ member
      | _ => exact inductionHypothesis
  exact fun reaches => inside reaches

/-- What a search that ends without success leaves: the names that it entered are settled. -/
structure Entered (types : Types) (before after : List String) : Prop where
  kept : before ⊆ after
  settled : ∀ name ∈ after, name ∉ before → MembersCovered types after name

namespace Entered

variable {types : Types} {before middle after : List String}

theorem refl (types : Types) (before : List String) : Entered types before before :=
  ⟨fun _ member => member, fun _ member new => absurd member new⟩

theorem trans (first : Entered types before middle) (second : Entered types middle after) :
    Entered types before after := by
  refine ⟨fun _ member => second.kept (first.kept member), fun name member new => ?_⟩
  by_cases earlier : name ∈ middle
  · exact (first.settled name earlier new).mono second.kept
  · exact second.settled name member earlier

/-- A name is entered before its members are searched. -/
theorem cons {name : String} (inside : Entered types (name :: before) after)
    (settled : MembersCovered types after name) : Entered types before after := by
  refine ⟨fun _ member => inside.kept (List.mem_cons_of_mem _ member), fun other member new => ?_⟩
  by_cases same : other = name
  · exact same ▸ settled
  · exact inside.settled other member fun held => (List.mem_cons.mp held).elim same new

end Entered

/-! ### Searches -/

/-- How a search ends: with text, or after all that it leads to was entered. -/
inductive Ends (types : Types) (reaches : Prop) (covered : List String → Prop)
    (before : List String) : Bool × List String → Prop
  | found {after : List String} : reaches → Ends types reaches covered before (true, after)
  | exhausted {after : List String} :
      Entered types before after → covered after →
        Ends types reaches covered before (false, after)

/-- The number of declared types that were not entered. -/
def unentered (types : Types) (entered : List String) : Nat :=
  (types.subtypes.filter fun subtype => !entered.contains subtype.name).length

theorem unentered_le {types : Types} {before after : List String} (kept : before ⊆ after) :
    unentered types after ≤ unentered types before := by
  unfold unentered
  rw [← List.countP_eq_length_filter, ← List.countP_eq_length_filter]
  refine List.countP_mono_left fun subtype _ absent => ?_
  simp only [Bool.not_eq_true', List.contains_eq_mem, decide_eq_false_iff_not] at absent ⊢
  exact fun member => absent (kept member)

theorem unentered_lt {types : Types} {entered : List String} {name : String} {subtype : Subtype}
    (found : types.subtype? name = some subtype) (new : name ∉ entered) :
    unentered types (name :: entered) < unentered types entered := by
  have member := List.mem_of_find?_eq_some found
  have named : subtype.name = name := by simpa using List.find?_some found
  have fewer : (types.subtypes.filter fun subtype => !(name :: entered).contains subtype.name) =
      (types.subtypes.filter fun subtype => !entered.contains subtype.name).filter
        (fun subtype => subtype.name ≠ name) := by
    rw [List.filter_filter]
    exact List.filter_congr fun other _ => by simp
  unfold unentered
  rw [fewer, List.length_filter_lt_length_iff_exists]
  refine ⟨subtype, List.mem_filter.mpr ⟨member, ?_⟩, ?_⟩
  · simpa [named] using new
  · simp [named]

section Searches

variable {types : Types} {enter : String → Search} {depth : Nat}

/-- What is asked of a way to enter names while few enough types were not entered. -/
def Enters (types : Types) (enter : String → Search) (depth : Nat) : Prop :=
  ∀ name entered, unentered types entered < depth →
    Ends types (ReachesText types (.named name)) (name ∈ ·) entered (enter name entered)

theorem Enters.search (enters : Enters types enter depth) (type : ValueType)
    (entered : List String) (few : unentered types entered < depth) :
    Ends types (ReachesText types type) (Covered · type) entered (type.search enter entered) := by
  have deeper : ∀ {outer inner : ValueType} {outcome : Bool × List String},
      Descends types outer inner → (∀ after, Covered after inner → Covered after outer) →
        Ends types (ReachesText types inner) (Covered · inner) entered outcome →
          Ends types (ReachesText types outer) (Covered · outer) entered outcome := by
    intro outer inner outcome descends lifts ends
    cases ends with
    | found reaches => exact .found (descends.reachesText reaches)
    | exhausted visited covered => exact .exhausted visited (lifts _ covered)
  induction type with
  | text => exact .found .refl
  | list _ inductionHypothesis => exact deeper .list (fun _ held => held) inductionHypothesis
  | commaSeparated _ inductionHypothesis =>
    exact deeper .commaSeparated (fun _ held => held) inductionHypothesis
  | map _ inductionHypothesis => exact deeper .map (fun _ held => held) inductionHypothesis
  | optional _ inductionHypothesis =>
    exact deeper .optional (fun _ held => held) inductionHypothesis
  | boxed _ inductionHypothesis => exact deeper .boxed (fun _ held => held) inductionHypothesis
  | named name => exact enters name entered few
  | _ => exact .exhausted (.refl types entered) trivial

theorem Enters.searchTypes (enters : Enters types enter depth) (list : List ValueType)
    (entered : List String) (few : unentered types entered < depth) :
    Ends types (∃ type ∈ list, ReachesText types type) (fun after => ∀ type ∈ list,
      Covered after type) entered (searchTypes enter list entered) := by
  induction list generalizing entered with
  | nil => exact .exhausted (.refl types entered) fun _ member => absurd member List.not_mem_nil
  | cons type rest inductionHypothesis =>
    unfold Lowering.searchTypes
    rcases single : type.search enter entered with ⟨found, middle⟩
    have ends := enters.search type entered few
    rw [single] at ends
    cases ends with
    | found reaches => exact .found ⟨type, List.mem_cons_self, reaches⟩
    | exhausted first covered =>
      show Ends types _ _ entered (Lowering.searchTypes enter rest middle)
      have others := inductionHypothesis middle
        (Nat.lt_of_le_of_lt (unentered_le first.kept) few)
      rcases later : Lowering.searchTypes enter rest middle with ⟨found, after⟩
      rw [later] at others
      cases others with
      | found reaches =>
        obtain ⟨other, member, reaches⟩ := reaches
        exact .found ⟨other, List.mem_cons_of_mem _ member, reaches⟩
      | exhausted second all =>
        refine .exhausted (first.trans second) fun other member => ?_
        rcases List.mem_cons.mp member with rfl | later
        · exact covered.mono second.kept
        · exact all other later

end Searches

/-- The names of declared types are searched rightly at a depth that exceeds the number of types
that were not entered. -/
theorem enterWithin_enters (types : Types) (depth : Nat) :
    Enters types (types.enterWithin depth) depth := by
  induction depth with
  | zero => exact fun _ _ few => absurd few (Nat.not_lt_zero _)
  | succ depth inductionHypothesis =>
    intro name entered few
    unfold Types.enterWithin
    by_cases again : entered.contains name = true
    · rw [if_pos again]
      exact .exhausted (.refl types entered) (by simpa using again)
    rw [if_neg again]
    have new : name ∉ entered := by simpa using again
    cases found : types.subtype? name with
    | none =>
      refine .exhausted (Entered.cons (.refl types _) ?_) List.mem_cons_self
      exact fun subtype declared => absurd (found.symm.trans declared) nofun
    | some subtype =>
      have fewer := unentered_lt found new
      have ends := inductionHypothesis.searchTypes subtype.memberTypes (name :: entered) (by omega)
      simp only
      rcases inner : searchTypes (types.enterWithin depth) subtype.memberTypes (name :: entered)
        with ⟨result, after⟩
      rw [inner] at ends
      cases ends with
      | found reaches =>
        obtain ⟨type, member, reaches⟩ := reaches
        exact .found ((Descends.member found member).reachesText reaches)
      | exhausted inside covered =>
        refine .exhausted (inside.cons fun other declared => ?_) (inside.kept List.mem_cons_self)
        cases found.symm.trans declared
        exact covered

/-- A search from the start ends with text exactly when there is some. -/
theorem Ends.start {types : Types} {reaches : Prop} {covered : List String → Prop}
    {outcome : Bool × List String} (ends : Ends types reaches covered [] outcome)
    (sound : ∀ after, (∀ name ∈ after, MembersCovered types after name) → covered after →
      ¬ reaches) :
    outcome.1 = true ↔ reaches := by
  cases ends with
  | found reached => exact ⟨fun _ => reached, fun _ => rfl⟩
  | exhausted visited held =>
    refine ⟨nofun, fun reached => absurd reached (sound _ ?_ held)⟩
    exact fun name member => visited.settled name member List.not_mem_nil

theorem enter_enters (types : Types) : Enters types types.enter (types.subtypes.length + 1) :=
  enterWithin_enters types _

theorem unentered_lt_start (types : Types) :
    unentered types [] < types.subtypes.length + 1 :=
  Nat.lt_succ_of_le (List.length_filter_le _ _)

theorem borrows_iff {types : Types} (sdk : types.dialect = .sdk) (type : ValueType) :
    types.borrows type = true ↔ ReachesText types type := by
  have ends := (enter_enters types).search type [] (unentered_lt_start types)
  rw [← ends.start fun after settled covered => covered.not_reachesText settled]
  simp [Types.borrows, sdk]

theorem subtypeBorrows_iff {types : Types} (sdk : types.dialect = .sdk) (subtype : Subtype) :
    types.subtypeBorrows subtype = true ↔
      ∃ type ∈ subtype.memberTypes, ReachesText types type := by
  have ends := (enter_enters types).searchTypes subtype.memberTypes [] (unentered_lt_start types)
  rw [← ends.start fun after settled covered => ?_]
  · simp [Types.subtypeBorrows, sdk]
  · rintro ⟨type, member, reaches⟩
    exact (covered type member).not_reachesText settled reaches

/-- The two searches agree, though only that for the name enters it. -/
theorem subtypeBorrows_eq {types : Types} (sdk : types.dialect = .sdk) {subtype : Subtype}
    (declared : types.subtype? subtype.name = some subtype) :
    types.subtypeBorrows subtype = types.borrows (.named subtype.name) := by
  rw [Bool.eq_iff_iff, subtypeBorrows_iff sdk, borrows_iff sdk]
  constructor
  · rintro ⟨type, member, reaches⟩
    exact (Descends.member declared member).reachesText reaches
  · intro reaches
    obtain none | ⟨inner, descends, reaches⟩ := Relation.ReflTransGen.cases_head reaches
    · cases none
    · cases descends with
      | member found member =>
        cases declared.symm.trans found
        exact ⟨inner, member, reaches⟩

end ServiceForge.Lowering
