/-
This file proves what one run of the resolution does. While references are being
followed, the reference on top of the others was mentioned by the target of the
one below it, and a value that was kept stands for the target of its reference: it
is the target with each local reference replaced by a kept value or left as it is.
A reference is left only where it is being followed already, which closes a cycle.
Both facts hold after every step, so they hold of the kept values whenever they
are used again.
-/

import Mathlib.Data.List.Chain
import ServiceForge.Proofs.Except
import ServiceForge.Proofs.Reference.Pointer
import ServiceForge.Proofs.Reference.Walk

namespace ServiceForge.OpenApi.Reference

/-! ### Steps of a computation -/

section Steps

variable {α β : Type} {progress after : Progress}

theorem bind_ok {first : Resolve α} {next : α → Resolve β} {result : β}
    (ok : (first >>= next) progress = .ok (result, after)) :
    ∃ value middle, first progress = .ok (value, middle) ∧
      next value middle = .ok (result, after) := by
  obtain ⟨⟨value, middle⟩, ran, rest⟩ := bind_eq_ok.mp ok
  exact ⟨value, middle, ran, rest⟩

theorem pure_ok {value result : α} (ok : (pure value : Resolve α) progress = .ok (result, after)) :
    value = result ∧ progress = after := by
  cases ok
  exact ⟨rfl, rfl⟩

end Steps

/-! ### Values that stand for nodes -/

/-- Whether a value has no parts. -/
def isScalar : Json → Bool
  | .array _ => false
  | .object _ => false
  | _ => true

/-- A reference whose value is kept or that is being followed. -/
def Progress.Knows (progress : Progress) (reference : String) : Prop :=
  reference ∈ progress.following ∨ (progress.resolved.get? reference).isSome

/-- The values that the resolution gives for a node. A node that stands for a local reference is
left, or takes the value that is kept for it; everything else is rewritten part by part. -/
inductive Represents (document : Json) (progress : Progress) : Json → Json → Prop
  | left {source : Json} {reference : String} :
      local? source = some reference → progress.Knows reference → OnCycle document reference →
        Represents document progress source (node reference)
  | kept {source target value : Json} {reference : String} :
      local? source = some reference → progress.resolved.get? reference = some value →
        target? document reference = some target → Represents document progress target value →
          Represents document progress source value
  | external {source : Json} :
      isExternal source → Represents document progress source source
  | scalar {source : Json} : isScalar source → Represents document progress source source
  | array {items results : List Json} :
      results.length = items.length →
        (∀ (position : Nat) (item result : Json), items[position]? = some item →
          results[position]? = some result → Represents document progress item result) →
          Represents document progress (.array items) (.array results)
  | object {members results : List (String × Json)} :
      ofMembers? members = none → OrderedMap.keys results = OrderedMap.keys members →
        (∀ (key : String) (value result : Json), OrderedMap.get? members key = some value →
          OrderedMap.get? results key = some result → Represents document progress value result) →
          Represents document progress (.object members) (.object results)

/-- What stands for a node that stands for a local reference. -/
theorem Represents.of_local? {document source value : Json} {progress : Progress}
    {reference : String} (represents : Represents document progress source value)
    (named : local? source = some reference) :
    (value = node reference ∧ progress.Knows reference ∧ OnCycle document reference) ∨
      ∃ target, target? document reference = some target ∧
        progress.resolved.get? reference = some value ∧
        Represents document progress target value := by
  cases represents with
  | left sameNamed known cycle =>
    obtain rfl := Option.some.inj (named.symm.trans sameNamed)
    exact Or.inl ⟨rfl, known, cycle⟩
  | kept sameNamed held found stands =>
    obtain rfl := Option.some.inj (named.symm.trans sameNamed)
    exact Or.inr ⟨_, found, held, stands⟩
  | external leaf =>
    rw [isExternal_of_local? named] at leaf
    cases leaf
  | scalar leaf =>
    cases source with
    | object members => cases leaf
    | _ => cases named
  | array => cases named
  | object noMember => simp [local?, noMember] at named

/-! ### What holds between two steps -/

/-- A reference that may be followed next: the target of the one on top mentions it. -/
def Enters (document : Json) (progress : Progress) (reference : String) : Prop :=
  ∀ last ∈ progress.following.head?, Refers document last reference

/-- What holds whenever a node is taken up. -/
structure Sound (document : Json) (progress : Progress) : Prop where
  apart : ∀ reference ∈ progress.following, progress.resolved.get? reference = none
  chained : List.IsChain (fun later earlier => Refers document earlier later) progress.following
  represents : ∀ reference value, progress.resolved.get? reference = some value →
    ∃ target, target? document reference = some target ∧
      Represents document progress target value

/-- What a computation leaves of the progress before it: the same references are being followed
and no value is lost. -/
structure Advances (progress after : Progress) : Prop where
  following : after.following = progress.following
  kept : ∀ reference value, progress.resolved.get? reference = some value →
    after.resolved.get? reference = some value

namespace Advances

variable {progress middle after : Progress}

theorem refl (progress : Progress) : Advances progress progress := ⟨rfl, fun _ _ held => held⟩

theorem trans (first : Advances progress middle) (second : Advances middle after) :
    Advances progress after :=
  ⟨second.following.trans first.following,
    fun reference value held => second.kept reference value (first.kept reference value held)⟩

theorem knows (advances : Advances progress after) {reference : String}
    (known : progress.Knows reference) : after.Knows reference := by
  rcases known with followed | held
  · exact Or.inl (advances.following ▸ followed)
  · obtain ⟨value, held⟩ := Option.isSome_iff_exists.mp held
    exact Or.inr (Option.isSome_iff_exists.mpr ⟨value, advances.kept reference value held⟩)

theorem enters (advances : Advances progress after) {document : Json} {reference : String}
    (enters : Enters document progress reference) : Enters document after reference := by
  intro last top
  rw [advances.following] at top
  exact enters last top

end Advances

theorem Represents.mono {document source value : Json} {progress after : Progress}
    (knows : ∀ reference, progress.Knows reference → after.Knows reference)
    (kept : ∀ reference value, progress.resolved.get? reference = some value →
      after.resolved.get? reference = some value)
    (represents : Represents document progress source value) :
    Represents document after source value := by
  induction represents with
  | left named known cycle => exact .left named (knows _ known) cycle
  | kept named held found _ inductionHypothesis =>
    exact .kept named (kept _ _ held) found inductionHypothesis
  | external leaf => exact .external leaf
  | scalar leaf => exact .scalar leaf
  | array length _ inductionHypothesis => exact .array length inductionHypothesis
  | object plain keys _ inductionHypothesis => exact .object plain keys inductionHypothesis

/-- The value that following a reference gives: the reference itself when it closes a cycle, and
else the value that is kept for it from now on. -/
def Answers (document : Json) (after : Progress) (reference : String) (value : Json) : Prop :=
  value = node reference ∧ reference ∈ after.following ∧ OnCycle document reference ∨
    after.resolved.get? reference = some value

/-- What is asked of a way to follow references. -/
def Faithful (document : Json) (follow : String → Resolve Json) : Prop :=
  ∀ reference progress value after, Sound document progress → Enters document progress reference →
    follow reference progress = .ok (value, after) →
      Sound document after ∧ Advances progress after ∧ Answers document after reference value

theorem Answers.represents {document source value : Json} {after : Progress} {reference : String}
    (sound : Sound document after) (named : local? source = some reference)
    (answers : Answers document after reference value) :
    Represents document after source value := by
  rcases answers with ⟨rfl, followed, cycle⟩ | held
  · exact .left named (Or.inl followed) cycle
  · obtain ⟨target, found, represents⟩ := sound.represents reference value held
    exact .kept named held found represents

theorem Advances.represents {document source value : Json} {progress after : Progress}
    (advances : Advances progress after)
    (represents : Represents document progress source value) :
    Represents document after source value :=
  represents.mono (fun _ => advances.knows) advances.kept

/-! ### Rewriting a node -/

section Substitution

variable {document : Json} {follow : String → Resolve Json}

mutual

/-- A node is rewritten to a value that stands for it. -/
theorem substitute_represents (faithful : Faithful document follow) (source : Json)
    (progress : Progress) (value : Json) (after : Progress) (sound : Sound document progress)
    (enters : ∀ reference, Mentions source reference → Enters document progress reference)
    (ok : substitute follow source progress = .ok (value, after)) :
    Sound document after ∧ Advances progress after ∧ Represents document after source value := by
  match source with
  | .object members =>
    cases named : ofMembers? members with
    | some reference =>
      simp only [substitute, named] at ok
      by_cases inside : isLocal reference = true
      · rw [if_pos inside] at ok
        have isReference : local? (.object members) = some reference :=
          Option.filter_eq_some_iff.mpr ⟨named, inside⟩
        obtain ⟨soundAfter, advances, answers⟩ := faithful reference progress value after sound
          (enters reference (.here isReference)) ok
        exact ⟨soundAfter, advances, answers.represents soundAfter isReference⟩
      · rw [if_neg inside] at ok
        obtain ⟨rfl, rfl⟩ := pure_ok ok
        refine ⟨sound, .refl _, .external ?_⟩
        simpa [isExternal, named] using inside
    | none =>
      simp only [substitute, named] at ok
      obtain ⟨results, middle, rewritten, returned⟩ := bind_ok ok
      obtain ⟨rfl, rfl⟩ := pure_ok returned
      obtain ⟨soundAfter, advances, keys, each⟩ := substituteMembers_represents faithful members
        progress results middle sound
        (fun _ _ reference held mentions => enters reference (.member named held mentions)) rewritten
      exact ⟨soundAfter, advances, .object named keys each⟩
  | .array items =>
    unfold substitute at ok
    obtain ⟨results, middle, rewritten, returned⟩ := bind_ok ok
    obtain ⟨rfl, rfl⟩ := pure_ok returned
    obtain ⟨soundAfter, advances, length, each⟩ := substituteItems_represents faithful items
      progress results middle sound
      (fun _ reference held mentions => enters reference (.item held mentions)) rewritten
    exact ⟨soundAfter, advances, .array length each⟩
  | .null | .bool _ | .number _ | .string _ =>
    obtain ⟨rfl, rfl⟩ := pure_ok ok
    exact ⟨sound, .refl _, .scalar rfl⟩

theorem substituteItems_represents (faithful : Faithful document follow) (items : List Json)
    (progress : Progress) (results : List Json) (after : Progress)
    (sound : Sound document progress)
    (enters : ∀ item reference, item ∈ items → Mentions item reference →
      Enters document progress reference)
    (ok : substituteItems follow items progress = .ok (results, after)) :
    Sound document after ∧ Advances progress after ∧ results.length = items.length ∧
      ∀ (position : Nat) (item result : Json), items[position]? = some item →
        results[position]? = some result → Represents document after item result := by
  match items with
  | [] =>
    obtain ⟨rfl, rfl⟩ := pure_ok ok
    exact ⟨sound, .refl _, rfl, fun _ _ _ found => by simp at found⟩
  | item :: rest =>
    unfold substituteItems at ok
    obtain ⟨first, middle, ranFirst, ok⟩ := bind_ok ok
    obtain ⟨others, last, ranRest, returned⟩ := bind_ok ok
    obtain ⟨rfl, rfl⟩ := pure_ok returned
    obtain ⟨soundMiddle, advancesFirst, represents⟩ := substitute_represents faithful item progress
      first middle sound (fun reference => enters item reference List.mem_cons_self) ranFirst
    obtain ⟨soundAfter, advancesRest, length, each⟩ := substituteItems_represents faithful rest
      middle others last soundMiddle
      (fun other reference held mentions =>
        advancesFirst.enters (enters other reference (List.mem_cons_of_mem _ held) mentions)) ranRest
    refine ⟨soundAfter, advancesFirst.trans advancesRest, by simp [length], ?_⟩
    intro position source result found given
    cases position with
    | zero =>
      cases found
      cases given
      exact advancesRest.represents represents
    | succ position => exact each position source result found given

theorem substituteMembers_represents (faithful : Faithful document follow)
    (members : List (String × Json)) (progress : Progress) (results : List (String × Json))
    (after : Progress) (sound : Sound document progress)
    (enters : ∀ key value reference, (key, value) ∈ members → Mentions value reference →
      Enters document progress reference)
    (ok : substituteMembers follow members progress = .ok (results, after)) :
    Sound document after ∧ Advances progress after ∧
      OrderedMap.keys results = OrderedMap.keys members ∧
      ∀ (key : String) (value result : Json), OrderedMap.get? members key = some value →
        OrderedMap.get? results key = some result → Represents document after value result := by
  match members with
  | [] =>
    obtain ⟨rfl, rfl⟩ := pure_ok ok
    exact ⟨sound, .refl _, rfl, fun _ _ _ found => by cases found⟩
  | (name, member) :: rest =>
    unfold substituteMembers at ok
    obtain ⟨first, middle, ranFirst, ok⟩ := bind_ok ok
    obtain ⟨others, last, ranRest, returned⟩ := bind_ok ok
    obtain ⟨rfl, rfl⟩ := pure_ok returned
    obtain ⟨soundMiddle, advancesFirst, represents⟩ := substitute_represents faithful member
      progress first middle sound
      (fun reference => enters name member reference List.mem_cons_self) ranFirst
    obtain ⟨soundAfter, advancesRest, keys, each⟩ := substituteMembers_represents faithful rest
      middle others last soundMiddle
      (fun key value reference held mentions => advancesFirst.enters
        (enters key value reference (List.mem_cons_of_mem _ held) mentions)) ranRest
    refine ⟨soundAfter, advancesFirst.trans advancesRest, congrArg (name :: ·) keys, ?_⟩
    intro key value result found given
    rw [OrderedMap.get?_cons] at found given
    by_cases same : key = name
    · simp only [same, if_true] at found given
      cases found
      cases given
      exact advancesRest.represents represents
    · simp only [same, if_false] at found given
      exact each key value result found given

end

end Substitution

/-! ### Following a reference -/

/-- The progress while the target of a reference is rewritten. -/
def Progress.begin (progress : Progress) (reference : String) : Progress :=
  { progress with following := reference :: progress.following }

/-- The progress once a reference has its value. -/
def Progress.keep (progress : Progress) (reference : String) (value : Json) : Progress where
  following := progress.following.erase reference
  resolved := progress.resolved.insert reference value

/-- What a reference that was followed met: a kept value, itself, or a target that is rewritten
while the reference counts as being followed. -/
theorem follow_ok {document value : Json} {budget : Nat} {reference : String}
    {progress after : Progress}
    (ok : follow document budget reference progress = .ok (value, after)) :
    (progress.resolved.get? reference = some value ∧ after = progress) ∨
      (reference ∈ progress.following ∧ value = node reference ∧ after = progress) ∨
      ∃ smaller target middle, budget = smaller + 1 ∧
        progress.resolved.get? reference = none ∧ reference ∉ progress.following ∧
        target? document reference = some target ∧
        substitute (follow document smaller) target (progress.begin reference) =
          .ok (value, middle) ∧ after = middle.keep reference value := by
  unfold follow at ok
  obtain ⟨current, started, got, ok⟩ := bind_ok ok
  obtain ⟨rfl, rfl⟩ : progress = current ∧ progress = started := by
    cases got
    exact ⟨rfl, rfl⟩
  cases held : progress.resolved.get? reference with
  | some kept =>
    simp only [held] at ok
    obtain ⟨rfl, rfl⟩ := pure_ok ok
    exact Or.inl ⟨rfl, rfl⟩
  | none =>
    simp only [held] at ok
    by_cases followed : reference ∈ progress.following
    · rw [if_pos (List.contains_iff_mem.mpr followed)] at ok
      obtain ⟨rfl, rfl⟩ := pure_ok ok
      exact Or.inr (Or.inl ⟨followed, rfl, rfl⟩)
    · rw [if_neg (by simpa using followed)] at ok
      cases budget with
      | zero => cases ok
      | succ smaller =>
        cases found : target? document reference with
        | none =>
          simp only [found] at ok
          cases ok
        | some target =>
          simp only [found] at ok
          obtain ⟨_, begun, entered, ok⟩ := bind_ok ok
          obtain rfl : progress.begin reference = begun := by
            cases entered
            rfl
          obtain ⟨result, middle, rewritten, ok⟩ := bind_ok ok
          obtain ⟨_, last, ended, returned⟩ := bind_ok ok
          obtain ⟨rfl, rfl⟩ := pure_ok returned
          refine Or.inr (Or.inr ⟨smaller, target, middle, rfl, rfl, followed, rfl, rewritten, ?_⟩)
          cases ended
          rfl

/-- Each reference being followed leads to the one on top. -/
theorem reaches_top {document : Json} {top reference : String} {rest : List String}
    (chained : List.IsChain (fun later earlier => Refers document earlier later) (top :: rest))
    (member : reference ∈ top :: rest) :
    Relation.ReflTransGen (Refers document) reference top := by
  induction rest generalizing top with
  | nil =>
    obtain rfl := List.mem_singleton.mp member
    exact .refl
  | cons below rest inductionHypothesis =>
    rw [List.isChain_cons_cons] at chained
    rcases List.mem_cons.mp member with rfl | lower
    · exact .refl
    · exact (inductionHypothesis chained.2 lower).tail chained.1

/-- A reference that is met while it is being followed closes a cycle. -/
theorem onCycle_of_following {document : Json} {progress : Progress} {reference : String}
    (sound : Sound document progress) (enters : Enters document progress reference)
    (followed : reference ∈ progress.following) : OnCycle document reference := by
  have chained := sound.chained
  unfold Enters at enters
  cases following : progress.following with
  | nil =>
    rw [following] at followed
    cases followed
  | cons top rest =>
    rw [following] at chained enters followed
    exact Relation.TransGen.tail' (reaches_top chained followed) (enters top rfl)

theorem Sound.begin {document : Json} {progress : Progress} {reference : String}
    (sound : Sound document progress) (enters : Enters document progress reference)
    (fresh : progress.resolved.get? reference = none) :
    Sound document (progress.begin reference) where
  apart := by
    intro other member
    rcases List.mem_cons.mp member with rfl | lower
    · exact fresh
    · exact sound.apart other lower
  chained := List.isChain_cons.mpr ⟨enters, sound.chained⟩
  represents := by
    intro other value held
    obtain ⟨target, found, represents⟩ := sound.represents other value held
    have knows : ∀ known, progress.Knows known → (progress.begin reference).Knows known :=
      fun _ known => known.imp_left (List.mem_cons_of_mem reference)
    exact ⟨target, found, represents.mono knows fun _ _ kept => kept⟩

section Keep

variable {document target value : Json} {progress middle : Progress} {reference : String}

/-- Keeping the value of the reference on top loses nothing. -/
theorem keep_knows (following : middle.following = (progress.begin reference).following)
    (other : String) (known : middle.Knows other) :
    (middle.keep reference value).Knows other := by
  have inserted : (middle.keep reference value).resolved.get? other =
      if other = reference then some value else middle.resolved.get? other :=
    OrderedMap.get?_insert _ _ _ _
  by_cases same : other = reference
  · exact Or.inr (by rw [inserted, if_pos same]; rfl)
  · rcases known with followed | held
    · rw [following] at followed
      refine Or.inl ?_
      rw [Progress.keep, following]
      simpa [Progress.begin, same] using followed
    · exact Or.inr (by rwa [inserted, if_neg same])

theorem keep_kept (sound : Sound document middle)
    (advances : Advances (progress.begin reference) middle) (other : String) (held : Json)
    (found : middle.resolved.get? other = some held) :
    (middle.keep reference value).resolved.get? other = some held := by
  have free : middle.resolved.get? reference = none :=
    sound.apart reference (by rw [advances.following]; exact List.mem_cons_self)
  have different : other ≠ reference := by
    rintro rfl
    rw [free] at found
    cases found
  rw [Progress.keep, OrderedMap.get?_insert, if_neg different]
  exact found

theorem keep_following (following : middle.following = (progress.begin reference).following) :
    (middle.keep reference value).following = progress.following := by
  rw [Progress.keep, following, Progress.begin, List.erase_cons_head]

theorem Sound.keep (before : Sound document progress) (sound : Sound document middle)
    (advances : Advances (progress.begin reference) middle)
    (new : reference ∉ progress.following) (found : target? document reference = some target)
    (represents : Represents document middle target value) :
    Sound document (middle.keep reference value) where
  apart := by
    intro other member
    rw [keep_following advances.following] at member
    have different : other ≠ reference := by
      rintro rfl
      exact new member
    rw [Progress.keep, OrderedMap.get?_insert, if_neg different]
    refine sound.apart other ?_
    rw [advances.following]
    exact List.mem_cons_of_mem reference member
  chained := by
    rw [keep_following advances.following]
    exact before.chained
  represents := by
    intro other held given
    rw [Progress.keep, OrderedMap.get?_insert] at given
    by_cases same : other = reference
    · subst same
      rw [if_pos rfl] at given
      cases given
      exact ⟨target, found,
        represents.mono (keep_knows advances.following) (keep_kept sound advances)⟩
    · rw [if_neg same] at given
      obtain ⟨otherTarget, otherFound, stands⟩ := sound.represents other held given
      exact ⟨otherTarget, otherFound,
        stands.mono (keep_knows advances.following) (keep_kept sound advances)⟩

end Keep

/-- Following a reference keeps what holds between two steps, at any budget. -/
theorem follow_faithful (document : Json) (budget : Nat) :
    Faithful document (follow document budget) := by
  induction budget using Nat.strongRecOn with
  | ind budget inductionHypothesis =>
    intro reference progress value after sound enters ok
    rcases follow_ok ok with ⟨held, rfl⟩ | ⟨followed, rfl, rfl⟩ |
      ⟨smaller, target, middle, rfl, fresh, new, found, rewritten, rfl⟩
    · exact ⟨sound, .refl _, Or.inr held⟩
    · exact ⟨sound, .refl _,
        Or.inl ⟨rfl, followed, onCycle_of_following sound enters followed⟩⟩
    · have mentioned : ∀ next, Mentions target next →
          Enters document (progress.begin reference) next := by
        intro next mentions last top
        cases top
        exact ⟨target, found, mentions⟩
      obtain ⟨soundMiddle, advances, represents⟩ :=
        substitute_represents (inductionHypothesis smaller (Nat.lt_succ_self smaller)) target
          (progress.begin reference) value middle (sound.begin enters fresh) mentioned rewritten
      have answered : (middle.keep reference value).resolved.get? reference = some value := by
        rw [Progress.keep, OrderedMap.get?_insert, if_pos rfl]
      have keeps : Advances progress (middle.keep reference value) :=
        ⟨keep_following advances.following, fun other held given =>
          keep_kept soundMiddle advances other held (advances.kept other held given)⟩
      exact ⟨sound.keep soundMiddle advances new found represents, keeps, Or.inr answered⟩

end ServiceForge.OpenApi.Reference
