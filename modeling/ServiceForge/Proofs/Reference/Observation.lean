/-
This file proves that resolution preserves what a document says. A reader follows
a path of keys and positions and leaves each local reference for its target in
the original document; whether the reader starts from the resolved document or
from the original one, every path shows the same.
-/

import ServiceForge.Proofs.Reference.Outcome

namespace ServiceForge.OpenApi.Reference

/-! ### What a reader sees -/

/-- What stands at the end of a path. -/
inductive Observation where
  | scalar (value : Json)
  | keys (names : List String)
  | length (count : Nat)
  | external (source : Json)
  | missing
  | endless
deriving Repr

/-- What a node shows that stands for no local reference. -/
def shape (source : Json) : Observation :=
  if isExternal source then .external source
  else
    match source with
    | .object members => .keys (OrderedMap.keys members)
    | .array items => .length items.length
    | value => .scalar value

/-- The target of the local reference that a node stands for. -/
def alias? (document source : Json) : Option Json := (local? source).bind (target? document)

/-- The node after so many references, each the target of the one before. -/
def aliases (document : Json) : Nat → Json → Option Json
  | 0, source => some source
  | count + 1, source => (alias? document source).bind (aliases document count)

/-- Each target in the chain of references from a node stands for a reference again. -/
def Endless (document source : Json) : Prop :=
  ∀ count, (aliases document count source).isSome

/-- What a reader sees who follows a path from a node and leaves each local reference for its
target in the document. A reference without a target shows nothing. -/
inductive Observes (document : Json) : Json → List Step → Observation → Prop
  | leave {source target : Json} {path : List Step} {observation : Observation} :
      alias? document source = some target → Observes document target path observation →
        Observes document source path observation
  | endless {source : Json} {path : List Step} :
      Endless document source → Observes document source path .endless
  | here {source : Json} : local? source = none → Observes document source [] (shape source)
  | step {source child : Json} {step : Step} {path : List Step} {observation : Observation} :
      local? source = none → child? source step = some child →
        Observes document child path observation →
          Observes document source (step :: path) observation
  | missing {source : Json} {step : Step} {path : List Step} :
      local? source = none → child? source step = none →
        Observes document source (step :: path) .missing

section Reader

variable {document source target : Json}

theorem alias?_of_local? (noReference : local? source = none) : alias? document source = none := by
  rw [alias?, noReference, Option.bind_none]

theorem alias?_node {reference : String} (named : local? source = some reference) :
    alias? document (node reference) = alias? document source := by
  rw [alias?, alias?, named, local?_node (isLocal_of_local? named)]

theorem Endless.exists_alias (endless : Endless document source) :
    ∃ target, alias? document source = some target := by
  cases isAlias : alias? document source with
  | none =>
    have first := endless 1
    rw [aliases, isAlias] at first
    cases first
  | some target => exact ⟨target, rfl⟩

theorem Endless.leave (endless : Endless document source)
    (isAlias : alias? document source = some target) : Endless document target := by
  intro count
  have further := endless (count + 1)
  rwa [aliases, isAlias, Option.bind_some] at further

theorem endless_of_alias (isAlias : alias? document source = some target)
    (endless : Endless document target) : Endless document source := by
  intro count
  cases count with
  | zero => rfl
  | succ count =>
    rw [aliases, isAlias, Option.bind_some]
    exact endless count

theorem not_endless (noReference : local? source = none) : ¬ Endless document source := by
  intro endless
  obtain ⟨target, isAlias⟩ := endless.exists_alias
  rw [alias?_of_local? noReference] at isAlias
  cases isAlias

theorem Observes.eq_endless {path : List Step} {observation : Observation}
    (observes : Observes document source path observation)
    (endless : Endless document source) : observation = .endless := by
  induction observes with
  | leave isAlias _ inductionHypothesis => exact inductionHypothesis (endless.leave isAlias)
  | endless _ => rfl
  | here noReference => exact absurd endless (not_endless noReference)
  | step noReference _ _ => exact absurd endless (not_endless noReference)
  | missing noReference _ => exact absurd endless (not_endless noReference)

/-- What is seen at a node that stands for no local reference. -/
theorem Observes.of_local? {path : List Step} {observation : Observation}
    (observes : Observes document source path observation) (noReference : local? source = none) :
    (path = [] ∧ observation = shape source) ∨
      ∃ step rest, path = step :: rest ∧
        ((∃ child, child? source step = some child ∧ Observes document child rest observation) ∨
          child? source step = none ∧ observation = .missing) := by
  cases observes with
  | leave isAlias _ =>
    rw [alias?_of_local? noReference] at isAlias
    cases isAlias
  | endless endless => exact absurd endless (not_endless noReference)
  | here => exact Or.inl ⟨rfl, rfl⟩
  | step _ found rest => exact Or.inr ⟨_, _, rfl, Or.inl ⟨_, found, rest⟩⟩
  | missing _ absent => exact Or.inr ⟨_, _, rfl, Or.inr ⟨absent, rfl⟩⟩

/-- A reader sees one thing at most. -/
theorem Observes.unique {path : List Step} {first second : Observation}
    (observes : Observes document source path first)
    (other : Observes document source path second) : first = second := by
  induction observes with
  | leave isAlias _ inductionHypothesis =>
    cases other with
    | leave otherAlias rest =>
      rw [isAlias] at otherAlias
      cases otherAlias
      exact inductionHypothesis rest
    | endless endless => exact inductionHypothesis (.endless (endless.leave isAlias))
    | here noReference | step noReference | missing noReference =>
      rw [alias?_of_local? noReference] at isAlias
      cases isAlias
  | endless endless => exact (other.eq_endless endless).symm
  | here noReference =>
    rcases other.of_local? noReference with ⟨-, same⟩ | ⟨_, _, impossible, -⟩
    · exact same.symm
    · cases impossible
  | step noReference found _ inductionHypothesis =>
    rcases other.of_local? noReference with ⟨impossible, -⟩ | ⟨_, _, same, further⟩
    · cases impossible
    · cases same
      rcases further with ⟨child, otherFound, rest⟩ | ⟨absent, -⟩
      · rw [found] at otherFound
        cases otherFound
        exact inductionHypothesis rest
      · rw [found] at absent
        cases absent
  | missing noReference absent =>
    rcases other.of_local? noReference with ⟨impossible, -⟩ | ⟨_, _, same, further⟩
    · cases impossible
    · cases same
      rcases further with ⟨child, found, -⟩ | ⟨-, same⟩
      · rw [absent] at found
        cases found
      · exact same.symm

end Reader

/-! ### One step from a node and from what stands for it -/

section Represents

variable {document : Json} {progress : Progress}

/-- A node that stands for no reference and the value that stands for it show the same, and each
step leads to parts of which one stands for the other. -/
theorem Represents.step {source value : Json} (isPlain : plain source)
    (noReference : local? source = none)
    (represents : Represents document progress source value) :
    local? value = none ∧ shape value = shape source ∧
      ∀ step, Option.Rel (Represents document progress) (child? source step) (child? value step) := by
  cases represents with
  | left named =>
    rw [noReference] at named
    cases named
  | kept named =>
    rw [noReference] at named
    cases named
  | external leaf =>
    refine ⟨noReference, rfl, fun step => ?_⟩
    rw [child?_of_isExternal leaf]
    exact .none
  | scalar leaf =>
    refine ⟨noReference, rfl, fun step => ?_⟩
    cases source with
    | array items => cases leaf
    | object members => cases leaf
    | _ => exact .none
  | @array items results length each =>
    refine ⟨rfl, congrArg Observation.length length, fun step => ?_⟩
    cases step with
    | key name => exact .none
    | index position =>
      change Option.Rel _ items[position]? results[position]?
      by_cases inside : position < items.length
      · rw [List.getElem?_eq_getElem inside, List.getElem?_eq_getElem (length ▸ inside)]
        exact .some (each position _ _ (List.getElem?_eq_getElem inside)
          (List.getElem?_eq_getElem (length ▸ inside)))
      · rw [List.getElem?_eq_none (Nat.le_of_not_lt inside),
          List.getElem?_eq_none (length ▸ Nat.le_of_not_lt inside)]
        exact .none
  | @object members results noMember keys each =>
    have noResult := ofMembers?_results isPlain noMember keys each
    have inside : isExternal (.object members) = false := by simp [isExternal, noMember]
    have insideResult : isExternal (.object results) = false := by simp [isExternal, noResult]
    refine ⟨by simp [local?, noResult], ?_, fun step => ?_⟩
    · simp [shape, inside, insideResult, keys]
    · cases step with
      | index position =>
        rw [child?_index_object, child?_index_object]
        exact .none
      | key name =>
        have present : (OrderedMap.get? results name).isSome = (OrderedMap.get? members name).isSome := by
          rw [Bool.eq_iff_iff, OrderedMap.isSome_get?, OrderedMap.isSome_get?, keys]
        rw [child?_key inside, child?_key insideResult]
        cases found : OrderedMap.get? members name with
        | none =>
          rw [found, Option.isSome_none, Option.isSome_eq_false_iff, Option.isNone_iff_eq_none]
            at present
          rw [present]
          exact .none
        | some value =>
          rw [found] at present
          obtain ⟨result, given⟩ := Option.isSome_iff_exists.mp present
          rw [given]
          exact .some (each name value result found given)

theorem plain_of_child {source child : Json} {step : Step} (isPlain : plain source)
    (found : child? source step = some child) : plain child := by
  unfold child? at found
  split at found
  · cases found
  · split at found
    · simp only [plain, Bool.and_eq_true] at isPlain
      exact plain_of_member isPlain.2 found
    · exact plain_of_item isPlain found
    · cases found

/-! ### Every part has something to show -/

/-- A node that was resolved: a value stands for it. -/
def Covered (document : Json) (progress : Progress) (source : Json) : Prop :=
  ∃ value, Represents document progress source value

/-- A reference that was met has a target, which was resolved too. -/
theorem Covered.leave (idle : Idle document progress) {source : Json}
    (covered : Covered document progress source) (named : local? source ≠ none) :
    ∃ target, alias? document source = some target ∧ Covered document progress target := by
  obtain ⟨reference, named⟩ := Option.ne_none_iff_exists'.mp named
  have leads {target : Json} (found : target? document reference = some target) :
      alias? document source = some target := by rw [alias?, named, Option.bind_some, found]
  obtain ⟨value, represents⟩ := covered
  rcases represents.of_local? named with ⟨-, followed | held, -⟩ | ⟨target, found, -, stands⟩
  · rw [idle.following] at followed
    cases followed
  · obtain ⟨value, held⟩ := Option.isSome_iff_exists.mp held
    obtain ⟨target, found, stands⟩ := idle.sound.represents reference value held
    exact ⟨target, leads found, value, stands⟩
  · exact ⟨target, leads found, value, stands⟩

theorem Covered.child {source child : Json} {step : Step} (isPlain : plain source)
    (covered : Covered document progress source) (noReference : local? source = none)
    (found : child? source step = some child) : Covered document progress child := by
  obtain ⟨value, represents⟩ := covered
  obtain ⟨-, -, parts⟩ := represents.step isPlain noReference
  have related := parts step
  rw [found] at related
  generalize child? value step = part at related
  cases related with
  | some stands => exact ⟨_, stands⟩

/-- A chain of references that ends leads to a node that stands for none, and a reader who starts
at its beginning sees what that node shows. -/
theorem Covered.settle (idle : Idle document progress) (plainDocument : plain document)
    {source : Json} {count : Nat} (isPlain : plain source)
    (covered : Covered document progress source) (ends : aliases document count source = none) :
    ∃ final, Covered document progress final ∧ plain final ∧ local? final = none ∧
      ∀ path observation, Observes document final path observation →
        Observes document source path observation := by
  induction count generalizing source with
  | zero => cases ends
  | succ count inductionHypothesis =>
    by_cases noReference : local? source = none
    · exact ⟨source, covered, isPlain, noReference, fun _ _ observes => observes⟩
    · obtain ⟨target, isAlias, coveredTarget⟩ := covered.leave idle noReference
      obtain ⟨reference, _, found⟩ := Option.bind_eq_some_iff.mp isAlias
      rw [aliases, isAlias, Option.bind_some] at ends
      obtain ⟨final, coveredFinal, plainFinal, atEnd, sees⟩ :=
        inductionHypothesis (plain_of_target plainDocument found) coveredTarget ends
      exact ⟨final, coveredFinal, plainFinal, atEnd,
        fun path observation observes => .leave isAlias (sees path observation observes)⟩

theorem Covered.observes (idle : Idle document progress) (plainDocument : plain document)
    {source : Json} (isPlain : plain source) (covered : Covered document progress source)
    (path : List Step) : ∃ observation, Observes document source path observation := by
  induction path generalizing source with
  | nil =>
    by_cases endless : Endless document source
    · exact ⟨.endless, .endless endless⟩
    · obtain ⟨count, ends⟩ := not_forall.mp endless
      obtain ⟨final, -, -, atEnd, sees⟩ :=
        covered.settle idle plainDocument isPlain (Option.not_isSome_iff_eq_none.mp ends)
      exact ⟨_, sees _ _ (.here atEnd)⟩
  | cons step rest inductionHypothesis =>
    by_cases endless : Endless document source
    · exact ⟨.endless, .endless endless⟩
    · obtain ⟨count, ends⟩ := not_forall.mp endless
      obtain ⟨final, coveredFinal, plainFinal, atEnd, sees⟩ :=
        covered.settle idle plainDocument isPlain (Option.not_isSome_iff_eq_none.mp ends)
      cases found : child? final step with
      | none => exact ⟨_, sees _ _ (.missing atEnd found)⟩
      | some child =>
        obtain ⟨observation, observes⟩ := inductionHypothesis (plain_of_child plainFinal found)
          (coveredFinal.child plainFinal atEnd found)
        exact ⟨observation, sees _ _ (.step atEnd found observes)⟩

/-! ### The value shows what its node shows -/

theorem Represents.endless {source value : Json}
    (represents : Represents document progress source value) (endless : Endless document source) :
    Endless document value := by
  induction represents with
  | left named =>
    obtain ⟨target, isAlias⟩ := endless.exists_alias
    rw [← alias?_node named] at isAlias
    exact endless_of_alias isAlias (endless.leave ((alias?_node named).symm.trans isAlias))
  | kept named _ found _ inductionHypothesis =>
    refine inductionHypothesis (endless.leave ?_)
    rw [alias?, named, Option.bind_some, found]
  | external => exact endless
  | scalar => exact endless
  | array => exact absurd endless (not_endless rfl)
  | object noMember =>
    exact absurd endless (not_endless (by rw [local?, noMember, Option.filter_none]))

/-- What a reader sees from a node is seen from a value that stands for it. -/
theorem Observes.represents (plainDocument : plain document) {source value : Json}
    {path : List Step} {observation : Observation}
    (observes : Observes document source path observation) (isPlain : plain source)
    (represents : Represents document progress source value) :
    Observes document value path observation := by
  induction observes generalizing value with
  | leave isAlias rest inductionHypothesis =>
    obtain ⟨reference, named, found⟩ := Option.bind_eq_some_iff.mp isAlias
    rcases represents.of_local? named with ⟨rfl, -, -⟩ | ⟨target, sameFound, -, stands⟩
    · exact .leave ((alias?_node named).trans isAlias) rest
    · rw [found] at sameFound
      cases sameFound
      exact inductionHypothesis (plain_of_target plainDocument found) stands
  | endless endless => exact .endless (represents.endless endless)
  | here noReference =>
    obtain ⟨noResult, same, -⟩ := represents.step isPlain noReference
    rw [← same]
    exact .here noResult
  | @step source child step path observation noReference found _ inductionHypothesis =>
    obtain ⟨noResult, -, parts⟩ := represents.step isPlain noReference
    have related := parts step
    rw [found] at related
    generalize given : child? value step = part at related
    cases related with
    | some stands =>
      exact .step noResult given (inductionHypothesis (plain_of_child isPlain found) stands)
  | @missing source step path noReference absent =>
    obtain ⟨noResult, -, parts⟩ := represents.step isPlain noReference
    have related := parts step
    rw [absent] at related
    generalize given : child? value step = part at related
    cases related with
    | none => exact .missing noResult given

end Represents

/-- A reader sees exactly one thing at the end of every path, and the same from the resolved
document as from the original one. -/
theorem observes_resolve {document resolved : Json} (isOpen : Open document)
    (isPlain : plain document) (ok : resolve document = .ok resolved) (path : List Step) :
    ∃ observation, ∀ other,
      (Observes document resolved path other ↔ other = observation) ∧
        (Observes document document path other ↔ other = observation) := by
  obtain ⟨progress, idle, represents⟩ := resolve_represents isOpen ok
  obtain ⟨observation, observes⟩ :=
    Covered.observes idle isPlain isPlain ⟨resolved, represents⟩ path
  have same := observes.represents isPlain isPlain represents
  refine ⟨observation, fun other => ⟨?_, ?_⟩⟩
  · exact ⟨fun seen => seen.unique same, fun equal => equal ▸ same⟩
  · exact ⟨fun seen => seen.unique observes, fun equal => equal ▸ observes⟩

/-- Two components that refer to each other, and a path that refers to one of them. -/
def mutualDocument : Json :=
  .object [
    ("paths", .object [("/nodes", node "#/components/schemas/A")]),
    ("components", .object [
      ("schemas", .object [
        ("A", .object [("b", node "#/components/schemas/B")]),
        ("B", .object [("a", node "#/components/schemas/A"), ("title", .string "B")])])])]

theorem mutualDocument_open : Open mutualDocument where
  root := by decide +kernel
  components := by decide +kernel
  entries := by decide +kernel

theorem mutualDocument_resolves : ∃ resolved, resolve mutualDocument = .ok resolved := by
  have succeeds : (resolve mutualDocument).toBool = true := by decide +kernel
  cases ok : resolve mutualDocument with
  | error reference =>
    rw [ok] at succeeds
    cases succeeds
  | ok resolved => exact ⟨resolved, rfl⟩

theorem observes_resolve_mutual :
    ∃ resolved, resolve mutualDocument = .ok resolved ∧ ∀ path, ∃ observation, ∀ other,
      (Observes mutualDocument resolved path other ↔ other = observation) ∧
        (Observes mutualDocument mutualDocument path other ↔ other = observation) := by
  obtain ⟨resolved, ok⟩ := mutualDocument_resolves
  exact ⟨resolved, ok, observes_resolve mutualDocument_open (by decide +kernel) ok⟩

end ServiceForge.OpenApi.Reference
