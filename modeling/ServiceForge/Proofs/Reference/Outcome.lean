/-
This file proves what a resolved document is made of. The members of the document,
its components and the sections of them are rewritten one by one, an entry of a
section through the reference to it, and between two of them no reference is being
followed. So every part of the resolved document stands for the part it was made
from, and an entry has the value that is kept for the reference to it; if no outer
object of the document is itself a reference, the whole stands for the whole.

Rewriting turns no object into a reference either. A member `$ref` that is no text could
only become one where it is itself a reference to a text; documents without such members
are plain, and so are the targets in them.
-/

import ServiceForge.Proofs.Reference.Resolution

namespace ServiceForge.OpenApi.Reference

/-! ### Runs of a computation -/

section Runs

variable {α β : Type} {progress middle : Progress}

theorem run_bind_of_ok {first : Resolve α} {next : α → Resolve β} {value : α}
    (ran : first progress = .ok (value, middle)) :
    (first >>= next) progress = next value middle := by
  show (first progress >>= fun result => next result.1 result.2) = _
  rw [ran]
  rfl

theorem run_bind_of_error {first : Resolve α} {next : α → Resolve β} {reference : String}
    (ran : first progress = .error reference) :
    (first >>= next) progress = .error reference := by
  show (first progress >>= fun result => next result.1 result.2) = _
  rw [ran]
  rfl

theorem run_map (convert : α → β) (run : Resolve α) (progress : Progress) :
    (convert <$> run) progress =
      (run progress).map fun result => (convert result.1, result.2) := by
  rw [map_eq_pure_bind]
  rcases ran : run progress with reference | ⟨value, middle⟩
  · exact run_bind_of_error ran
  · exact run_bind_of_ok ran

end Runs

/-! ### Between two members -/

/-- What holds while no reference is being followed. -/
structure Idle (document : Json) (progress : Progress) : Prop where
  sound : Sound document progress
  following : progress.following = []

theorem Idle.start (document : Json) : Idle document {} where
  sound := ⟨nofun, .nil, nofun⟩
  following := rfl

section Idle

variable {document : Json} {progress after : Progress}

theorem Idle.enters (idle : Idle document progress) (reference : String) :
    Enters document progress reference := by
  intro last top
  rw [idle.following] at top
  cases top

theorem Idle.advance (idle : Idle document progress) (sound : Sound document after)
    (advances : Advances progress after) : Idle document after :=
  ⟨sound, advances.following.trans idle.following⟩

/-- Between documents nothing is in progress, and what is put in place represents its source. -/
theorem substitute_idle {budget : Nat} {source value : Json} (idle : Idle document progress)
    (ok : substitute (follow document budget) source progress = .ok (value, after)) :
    Idle document after ∧ Advances progress after ∧ Represents document after source value := by
  obtain ⟨sound, advances, represents⟩ := substitute_represents (follow_faithful document budget)
    source progress value after idle.sound (fun reference _ => idle.enters reference) ok
  exact ⟨idle.advance sound advances, advances, represents⟩

/-- A reference that is followed on its own has its value kept. -/
theorem follow_idle {budget : Nat} {reference : String} {value : Json}
    (idle : Idle document progress)
    (ok : follow document budget reference progress = .ok (value, after)) :
    Idle document after ∧ Advances progress after ∧
      after.resolved.get? reference = some value := by
  obtain ⟨sound, advances, answers⟩ := follow_faithful document budget reference progress value
    after idle.sound (idle.enters reference) ok
  have idleAfter := idle.advance sound advances
  rcases answers with ⟨_, followed, _⟩ | held
  · rw [idleAfter.following] at followed
    cases followed
  · exact ⟨idleAfter, advances, held⟩

end Idle

/-! ### Entries one by one -/

/-- Rewrites the values of entries in their order. -/
def rewriteEntries (rewrite : String → Json → Resolve Json) :
    List (String × Json) → Resolve (List (String × Json))
  | [] => return []
  | (key, value) :: rest => do
    let value ← rewrite key value
    return (key, value) :: (← rewriteEntries rewrite rest)

/-- The rewriting of a section of the components. -/
def resolveSection (document : Json) (budget : Nat) (name : String) (content : Json) :
    Resolve Json :=
  match content with
  | .object entries =>
    if sections.contains name then do
      return .object (← resolveEntries document budget name entries)
    else substitute (follow document budget) content
  | content => substitute (follow document budget) content

/-- The rewriting of a member of the document. -/
def resolveMember (document : Json) (budget : Nat) (key : String) (value : Json) : Resolve Json :=
  if key = "components" then resolveComponents document budget value
  else substitute (follow document budget) value

/-- Entries of components are rewritten one after another. -/
theorem resolveEntries_eq (document : Json) (budget : Nat) (section_ : String)
    (entries : List (String × Json)) :
    resolveEntries document budget section_ entries =
      rewriteEntries (fun name _ => follow document budget (ofComponent section_ name)) entries := by
  induction entries with
  | nil => rfl
  | cons entry rest inductionHypothesis =>
    rw [resolveEntries, rewriteEntries, inductionHypothesis]

/-- Parts of components are rewritten one after another. -/
theorem resolveSections_eq (document : Json) (budget : Nat) (content : List (String × Json)) :
    resolveSections document budget content =
      rewriteEntries (resolveSection document budget) content := by
  induction content with
  | nil => rfl
  | cons entry rest inductionHypothesis =>
    obtain ⟨name, value⟩ := entry
    cases value with
    | object entries =>
      by_cases listed : sections.contains name = true
      · simp only [resolveSections, rewriteEntries, resolveSection, listed, if_true,
          inductionHypothesis, bind_assoc, pure_bind]
      · simp only [resolveSections, rewriteEntries, resolveSection, listed,
          inductionHypothesis]
        rfl
    | _ =>
      rw [rewriteEntries, ← inductionHypothesis]
      rfl

/-- Members of a document are rewritten one after another. -/
theorem resolveRoot_eq (document : Json) (budget : Nat) (members : List (String × Json)) :
    resolveRoot document budget members =
      rewriteEntries (resolveMember document budget) members := by
  induction members with
  | nil => rfl
  | cons entry rest inductionHypothesis =>
    rw [resolveRoot, rewriteEntries, inductionHypothesis, resolveMember]
    split <;> rfl

/-- The entries of two objects under the same keys, related key by key. -/
structure Entrywise (relation : String → Json → Json → Prop)
    (entries results : List (String × Json)) : Prop where
  keys : OrderedMap.keys results = OrderedMap.keys entries
  each : ∀ key value result, OrderedMap.get? entries key = some value →
    OrderedMap.get? results key = some result → relation key value result

theorem Entrywise.mono {relation weaker : String → Json → Json → Prop}
    (weakens : ∀ key source result, relation key source result → weaker key source result)
    {entries results : List (String × Json)} (entrywise : Entrywise relation entries results) :
    Entrywise weaker entries results where
  keys := entrywise.keys
  each := fun key source result found given =>
    weakens key source result (entrywise.each key source result found given)

/-- Each entry has a result under the same key. -/
theorem Entrywise.get? {relation : String → Json → Json → Prop}
    {entries results : List (String × Json)} (entrywise : Entrywise relation entries results)
    {key : String} {source : Json} (found : OrderedMap.get? entries key = some source) :
    ∃ result, OrderedMap.get? results key = some result ∧ relation key source result := by
  have present : (OrderedMap.get? results key).isSome := by
    rw [OrderedMap.isSome_get?, entrywise.keys, ← OrderedMap.isSome_get?, found]
    rfl
  obtain ⟨result, given⟩ := Option.isSome_iff_exists.mp present
  exact ⟨result, given, entrywise.each key source result found given⟩

/-- Each result comes from an entry under the same key. -/
theorem Entrywise.get?_of_result {relation : String → Json → Json → Prop}
    {entries results : List (String × Json)} (entrywise : Entrywise relation entries results)
    {key : String} {result : Json} (given : OrderedMap.get? results key = some result) :
    ∃ source, OrderedMap.get? entries key = some source ∧ relation key source result := by
  have present : (OrderedMap.get? entries key).isSome := by
    rw [OrderedMap.isSome_get?, ← entrywise.keys, ← OrderedMap.isSome_get?, given]
    rfl
  obtain ⟨source, found⟩ := Option.isSome_iff_exists.mp present
  exact ⟨source, found, entrywise.each key source result found given⟩

/-- Rewriting entries relates each value to its result, if the rewriting of one entry does so and
what is kept later does not matter. -/
theorem rewriteEntries_relates {document : Json} {rewrite : String → Json → Resolve Json}
    {relation : Progress → String → Json → Json → Prop}
    (lasting : ∀ {progress after key value result}, Advances progress after →
      relation progress key value result → relation after key value result)
    (relates : ∀ key value progress result after, Idle document progress →
      rewrite key value progress = .ok (result, after) →
        Idle document after ∧ Advances progress after ∧ relation after key value result)
    (entries : List (String × Json)) {progress after : Progress} {results : List (String × Json)}
    (idle : Idle document progress)
    (ok : rewriteEntries rewrite entries progress = .ok (results, after)) :
    Idle document after ∧ Advances progress after ∧
      Entrywise (relation after) entries results := by
  induction entries generalizing progress results with
  | nil =>
    obtain ⟨rfl, rfl⟩ := pure_ok ok
    exact ⟨idle, .refl _, rfl, nofun⟩
  | cons entry rest inductionHypothesis =>
    obtain ⟨name, member⟩ := entry
    unfold rewriteEntries at ok
    obtain ⟨first, middle, ranFirst, ok⟩ := bind_ok ok
    obtain ⟨others, last, ranRest, returned⟩ := bind_ok ok
    obtain ⟨rfl, rfl⟩ := pure_ok returned
    obtain ⟨idleMiddle, advancesFirst, related⟩ := relates name member progress first middle
      idle ranFirst
    obtain ⟨idleAfter, advancesRest, keys, each⟩ := inductionHypothesis idleMiddle ranRest
    refine ⟨idleAfter, advancesFirst.trans advancesRest, congrArg (name :: ·) keys, ?_⟩
    intro key value result found given
    rw [OrderedMap.get?_cons] at found given
    by_cases same : key = name
    · subst same
      simp only [if_true] at found given
      cases found
      cases given
      exact lasting advancesRest related
    · simp only [same, if_false] at found given
      exact each key value result found given

/-! ### The rewriting of a document -/

/-- The rewriting of a document. -/
def resolveDocument (document : Json) (budget : Nat) : Resolve Json :=
  match document with
  | .object members => Json.object <$> resolveRoot document budget members
  | document => substitute (follow document budget) document

theorem resolve_eq (document : Json) :
    resolve document =
      (resolveDocument document ((all document).length + 1) {}).map Prod.fst := by
  cases document with
  | object members =>
    show (resolveRoot _ _ members {} >>= fun result => pure (Json.object result.1)) =
      ((Json.object <$> resolveRoot _ _ members) {}).map Prod.fst
    rw [run_map]
    rcases resolveRoot _ _ members {} with reference | ⟨results, after⟩ <;> rfl
  | _ =>
    show (substitute _ _ {} >>= fun result => pure result.1) = (substitute _ _ {}).map Prod.fst
    rcases substitute _ _ {} with reference | ⟨value, after⟩ <;> rfl

/-- A resolved document is the result of a run that starts without any value. -/
theorem resolve_ok {document resolved : Json} (ok : resolve document = .ok resolved) :
    ∃ after, resolveDocument document ((all document).length + 1) {} = .ok (resolved, after) := by
  rw [resolve_eq] at ok
  rcases ran : resolveDocument document ((all document).length + 1) {} with last | ⟨value, after⟩
  · rw [ran] at ok
    cases ok
  · rw [ran] at ok
    cases ok
    exact ⟨after, rfl⟩

/-! ### What becomes of the parts of a document -/

section Becomes

variable (node : Json → Json → Prop) (entry : String → Json → Prop)

/-- The entries of a section that are resolved as references to them become what these do, and all
else becomes what nodes do. -/
def SectionBecomes (name : String) (content result : Json) : Prop :=
  match content with
  | .object entries =>
    if sections.contains name then
      ∃ results, result = .object results ∧
        Entrywise (fun key _ given => entry (ofComponent name key) given) entries results
    else node content result
  | content => node content result

/-- The components become what their sections do, one by one. -/
def MemberBecomes (key : String) (source result : Json) : Prop :=
  if key = "components" then
    match source with
    | .object content =>
      ∃ results, result = .object results ∧
        Entrywise (SectionBecomes node entry) content results
    | source => node source result
  else node source result

/-- A document becomes what its members do, one by one. -/
def Becomes (document resolved : Json) : Prop :=
  match document with
  | .object members =>
    ∃ results, resolved = .object results ∧ Entrywise (MemberBecomes node entry) members results
  | source => node source resolved

variable {node entry} {name : String} {entries : List (String × Json)} {result : Json}

/-- The entries of a section take what the references to them become. -/
theorem sectionBecomes_of_mem (listed : name ∈ sections) :
    SectionBecomes node entry name (.object entries) result ↔
      ∃ results, result = .object results ∧
        Entrywise (fun key _ given => entry (ofComponent name key) given) entries results := by
  rw [SectionBecomes, if_pos (List.contains_iff_mem.mpr listed)]

theorem sectionBecomes_of_notMem (unlisted : name ∉ sections) :
    SectionBecomes node entry name (.object entries) result ↔ node (.object entries) result := by
  rw [SectionBecomes, if_neg (by simpa using unlisted)]

end Becomes

section Weaken

variable {node weakerNode : Json → Json → Prop} {entry weakerEntry : String → Json → Prop}
  (nodes : ∀ source result, node source result → weakerNode source result)
  (entries : ∀ reference result, entry reference result → weakerEntry reference result)

include nodes entries

theorem SectionBecomes.mono {name : String} {content result : Json}
    (becomes : SectionBecomes node entry name content result) :
    SectionBecomes weakerNode weakerEntry name content result := by
  cases content with
  | object inside =>
    by_cases listed : name ∈ sections
    · obtain ⟨results, same, entrywise⟩ := (sectionBecomes_of_mem listed).mp becomes
      exact (sectionBecomes_of_mem listed).mpr
        ⟨results, same, entrywise.mono fun _ _ _ => entries _ _⟩
    · rw [sectionBecomes_of_notMem listed] at becomes ⊢
      exact nodes _ _ becomes
  | _ => exact nodes _ _ becomes

theorem MemberBecomes.mono {key : String} {source result : Json}
    (becomes : MemberBecomes node entry key source result) :
    MemberBecomes weakerNode weakerEntry key source result := by
  unfold MemberBecomes at becomes ⊢
  split at becomes
  · next isComponents =>
    rw [if_pos isComponents]
    cases source with
    | object content =>
      obtain ⟨results, same, entrywise⟩ := becomes
      exact ⟨results, same, entrywise.mono fun _ _ _ => .mono nodes entries⟩
    | _ => exact nodes _ _ becomes
  · next other =>
    rw [if_neg other]
    exact nodes _ _ becomes

theorem Becomes.mono {document resolved : Json} (becomes : Becomes node entry document resolved) :
    Becomes weakerNode weakerEntry document resolved := by
  cases document with
  | object members =>
    obtain ⟨results, same, entrywise⟩ := becomes
    exact ⟨results, same, entrywise.mono fun _ _ _ => .mono nodes entries⟩
  | _ => exact nodes _ _ becomes

end Weaken

/-- A section of a resolved document is made of that section of the document. -/
theorem Becomes.ofSection {node : Json → Json → Prop} {entry : String → Json → Prop}
    {document resolved content : Json} (becomes : Becomes node entry document resolved)
    {name : String} (held : section? document name = some content) :
    ∃ result, section? resolved name = some result ∧ SectionBecomes node entry name content result := by
  obtain ⟨components, found, inside⟩ := Option.bind_eq_some_iff.mp held
  cases document with
  | object members =>
    obtain ⟨results, rfl, entrywise⟩ := becomes
    obtain ⟨result, given, ofComponents⟩ := entrywise.get? found
    unfold MemberBecomes at ofComponents
    rw [if_pos rfl] at ofComponents
    cases components with
    | object sources =>
      obtain ⟨inner, rfl, sectionwise⟩ := ofComponents
      obtain ⟨outcome, isOutcome, ofSection⟩ := sectionwise.get? inside
      refine ⟨outcome, ?_, ofSection⟩
      rw [section?, show Json.get? (.object results) "components" = some (.object inner)
        from given, Option.bind_some]
      exact isOutcome
    | _ => cases inside
  | _ => cases found

/-! ### The parts of a resolved document -/

/-- Whether a value is kept for a reference. -/
def Progress.Keeps (progress : Progress) (reference : String) (value : Json) : Prop :=
  progress.resolved.get? reference = some value

section Document

variable {document : Json} {budget : Nat} {progress after : Progress}

/-- An entry of a section takes the value of the reference to it. -/
theorem resolveEntries_becomes {section_ : String} {entries results : List (String × Json)}
    (idle : Idle document progress)
    (ok : resolveEntries document budget section_ entries progress = .ok (results, after)) :
    Idle document after ∧ Advances progress after ∧
      Entrywise (fun name _ result => after.Keeps (ofComponent section_ name) result)
        entries results := by
  rw [resolveEntries_eq] at ok
  exact @rewriteEntries_relates document _
    (fun progress name _ result => progress.Keeps (ofComponent section_ name) result)
    (fun advances => advances.kept _ _) (fun _ _ _ _ _ idle ran => follow_idle idle ran)
    entries _ _ _ idle ok

theorem resolveSection_becomes (name : String) (content : Json) (progress : Progress)
    (result : Json) (after : Progress) (idle : Idle document progress)
    (ok : resolveSection document budget name content progress = .ok (result, after)) :
    Idle document after ∧ Advances progress after ∧
      SectionBecomes (Represents document after) after.Keeps name content result := by
  have substituted (ran : substitute (follow document budget) content progress =
      .ok (result, after)) : Idle document after ∧ Advances progress after ∧
        Represents document after content result := substitute_idle idle ran
  cases content with
  | object entries =>
    unfold resolveSection at ok
    dsimp only at ok
    by_cases listed : name ∈ sections
    · rw [if_pos (List.contains_iff_mem.mpr listed)] at ok
      obtain ⟨results, middle, rewritten, returned⟩ := bind_ok ok
      obtain ⟨rfl, rfl⟩ := pure_ok returned
      obtain ⟨idleAfter, advances, kept⟩ := resolveEntries_becomes idle rewritten
      exact ⟨idleAfter, advances, (sectionBecomes_of_mem listed).mpr ⟨results, rfl, kept⟩⟩
    · rw [if_neg (by simpa using listed)] at ok
      rw [sectionBecomes_of_notMem listed]
      exact substituted ok
  | _ => exact substituted ok

theorem resolveMember_becomes (key : String) (source : Json) (progress : Progress)
    (result : Json) (after : Progress) (idle : Idle document progress)
    (ok : resolveMember document budget key source progress = .ok (result, after)) :
    Idle document after ∧ Advances progress after ∧
      MemberBecomes (Represents document after) after.Keeps key source result := by
  have substituted (ran : substitute (follow document budget) source progress =
      .ok (result, after)) : Idle document after ∧ Advances progress after ∧
        Represents document after source result := substitute_idle idle ran
  unfold resolveMember at ok
  unfold MemberBecomes
  split at ok
  · next isComponents =>
    rw [if_pos isComponents]
    cases source with
    | object content =>
      unfold resolveComponents at ok
      obtain ⟨results, middle, rewritten, returned⟩ := bind_ok ok
      obtain ⟨rfl, rfl⟩ := pure_ok returned
      rw [resolveSections_eq] at rewritten
      obtain ⟨idleAfter, advances, entrywise⟩ := rewriteEntries_relates
        (fun advances => .mono (fun _ _ => advances.represents) advances.kept)
        resolveSection_becomes content idle rewritten
      exact ⟨idleAfter, advances, results, rfl, entrywise⟩
    | _ => exact substituted ok
  · next other =>
    rw [if_neg other]
    exact substituted ok

/-- A resolved document has become what its references stand for. -/
theorem resolveDocument_becomes {resolved : Json}
    (ok : resolveDocument document budget {} = .ok (resolved, after)) :
    Idle document after ∧ Becomes (Represents document after) after.Keeps document resolved := by
  cases document with
  | object members =>
    unfold resolveDocument at ok
    dsimp only at ok
    rw [map_eq_pure_bind, resolveRoot_eq] at ok
    obtain ⟨results, middle, rewritten, returned⟩ := bind_ok ok
    obtain ⟨rfl, rfl⟩ := pure_ok returned
    obtain ⟨idleAfter, -, entrywise⟩ := rewriteEntries_relates
      (fun advances => .mono (fun _ _ => advances.represents) advances.kept)
      resolveMember_becomes members (Idle.start _) rewritten
    exact ⟨idleAfter, results, rfl, entrywise⟩
  | _ =>
    obtain ⟨idleAfter, -, represents⟩ := substitute_idle (Idle.start _) ok
    exact ⟨idleAfter, represents⟩

end Document

/-! ### Documents whose outer objects are no references -/

/-- The objects that are always rewritten member by member have no member `$ref`: the document,
its components, and the sections whose entries are resolved as references to them are. -/
structure Open (document : Json) : Prop where
  root : document.get? "$ref" = none
  components : (document.get? "components").bind (·.get? "$ref") = none
  entries : ∀ name ∈ sections, (section? document name).bind (·.get? "$ref") = none

theorem ofMembers?_of_get? {members : List (String × Json)}
    (absent : Json.get? (.object members) "$ref" = none) : ofMembers? members = none := by
  have absent : OrderedMap.get? members "$ref" = none := absent
  rw [ofMembers?, absent, Option.bind_none]

section Open

variable {document : Json} {progress : Progress}

/-- The value of the reference to an entry stands for the entry. -/
theorem SectionBecomes.represents (isOpen : Open document) (sound : Sound document progress)
    {name : String} {content result : Json}
    (becomes : SectionBecomes (Represents document progress) progress.Keeps name content result)
    (held : section? document name = some content) :
    Represents document progress content result := by
  cases content with
  | object entries =>
    by_cases listed : name ∈ sections
    · obtain ⟨results, rfl, keys, kept⟩ := (sectionBecomes_of_mem listed).mp becomes
      have noReference := isOpen.entries name listed
      rw [held, Option.bind_some] at noReference
      refine .object (ofMembers?_of_get? noReference) keys fun key entry result present given => ?_
      obtain ⟨target, isTarget, represents⟩ :=
        sound.represents _ result (kept key entry result present given)
      rw [target?_ofComponent listed held, present] at isTarget
      cases isTarget
      exact represents
    · exact (sectionBecomes_of_notMem listed).mp becomes
  | _ => exact becomes

theorem MemberBecomes.represents (isOpen : Open document) (sound : Sound document progress)
    {key : String} {source result : Json}
    (becomes : MemberBecomes (Represents document progress) progress.Keeps key source result)
    (held : document.get? key = some source) : Represents document progress source result := by
  unfold MemberBecomes at becomes
  split at becomes
  · next isComponents =>
    subst isComponents
    cases source with
    | object content =>
      obtain ⟨results, rfl, keys, each⟩ := becomes
      have noReference := isOpen.components
      rw [held, Option.bind_some] at noReference
      refine .object (ofMembers?_of_get? noReference) keys fun name value result present given => ?_
      refine (each name value result present given).represents isOpen sound ?_
      rw [section?, held, Option.bind_some]
      exact present
    | _ => exact becomes
  · exact becomes

/-- If the outer objects of a document are no references, what it becomes represents it. -/
theorem Becomes.represents (isOpen : Open document) (sound : Sound document progress)
    {resolved : Json}
    (becomes : Becomes (Represents document progress) progress.Keeps document resolved) :
    Represents document progress document resolved := by
  cases document with
  | object members =>
    obtain ⟨results, rfl, keys, each⟩ := becomes
    exact .object (ofMembers?_of_get? isOpen.root) keys fun key value result present given =>
      (each key value result present given).represents isOpen sound present
  | _ => exact becomes

end Open

/-- The resolved document stands for the document, at an end where no reference is followed. -/
theorem resolve_represents {document resolved : Json} (isOpen : Open document)
    (ok : resolve document = .ok resolved) :
    ∃ progress, Idle document progress ∧ Represents document progress document resolved := by
  obtain ⟨after, ran⟩ := resolve_ok ok
  obtain ⟨idle, becomes⟩ := resolveDocument_becomes ran
  exact ⟨after, idle, becomes.represents isOpen idle.sound⟩

/-! ### Documents without hidden references -/

mutual

/-- Whether no member `$ref` holds a node that stands for a local reference: what such a node is
rewritten to may be a text, which would turn the object around it into a reference. -/
def plain : Json → Bool
  | .object members =>
    ((OrderedMap.get? members "$ref").all fun value => (local? value).isNone) && plainMembers members
  | .array items => plainItems items
  | _ => true

/-- Whether all items of an array are plain. -/
def plainItems : List Json → Bool
  | [] => true
  | item :: rest => plain item && plainItems rest

/-- Whether all values of members are plain. -/
def plainMembers : List (String × Json) → Bool
  | [] => true
  | (_, value) :: rest => plain value && plainMembers rest

end

theorem plain_of_member {members : List (String × Json)} {key : String} {value : Json}
    (isPlain : plainMembers members) (found : OrderedMap.get? members key = some value) :
    plain value := by
  induction members with
  | nil => cases found
  | cons entry rest inductionHypothesis =>
    obtain ⟨name, member⟩ := entry
    simp only [plainMembers, Bool.and_eq_true] at isPlain
    rw [OrderedMap.get?_cons] at found
    split at found
    · cases found
      exact isPlain.1
    · exact inductionHypothesis isPlain.2 found

theorem plain_of_item {items : List Json} {position : Nat} {item : Json}
    (isPlain : plainItems items) (found : items[position]? = some item) : plain item := by
  induction items generalizing position with
  | nil => simp at found
  | cons first rest inductionHypothesis =>
    simp only [plainItems, Bool.and_eq_true] at isPlain
    cases position with
    | zero =>
      cases found
      exact isPlain.1
    | succ position => exact inductionHypothesis isPlain.2 found

/-- A step into a plain value leads to a plain value. -/
theorem plain_of_step {source value : Json} {step : String} (isPlain : plain source)
    (found : step? source step = some value) : plain value := by
  cases source with
  | object members =>
    simp only [plain, Bool.and_eq_true] at isPlain
    exact plain_of_member isPlain.2 found
  | array items =>
    obtain ⟨position, _, found⟩ := Option.bind_eq_some_iff.mp found
    exact plain_of_item isPlain found
  | _ => cases found

/-- The targets of references in a plain document are plain. -/
theorem plain_of_target {document target : Json} {reference : String} (isPlain : plain document)
    (found : target? document reference = some target) : plain target :=
  target?_induction plain_of_step isPlain found

/-! ### Rewritten objects are no references -/

section Represents

variable {document : Json} {progress : Progress}

/-- Only a text is rewritten to a text, unless a reference is. -/
theorem eq_of_represents_string {value : Json} {text : String} (notLocal : local? value = none)
    (represents : Represents document progress value (.string text)) : value = .string text := by
  cases represents with
  | kept named =>
    rw [notLocal] at named
    cases named
  | external => rfl
  | scalar => rfl

theorem ofMembers?_results {members results : List (String × Json)}
    (isPlain : plain (.object members)) (noReference : ofMembers? members = none)
    (keys : OrderedMap.keys results = OrderedMap.keys members)
    (each : ∀ key value result, OrderedMap.get? members key = some value →
      OrderedMap.get? results key = some result → Represents document progress value result) :
    ofMembers? results = none := by
  rw [Option.eq_none_iff_forall_ne_some]
  intro reference named
  obtain ⟨result, given, isText⟩ := Option.bind_eq_some_iff.mp named
  have present : (OrderedMap.get? members "$ref").isSome := by
    rw [OrderedMap.isSome_get?, ← keys, ← OrderedMap.isSome_get?, given]
    rfl
  obtain ⟨value, found⟩ := Option.isSome_iff_exists.mp present
  obtain rfl : result = .string reference := by
    cases result with
    | string text =>
      cases isText
      rfl
    | _ => cases isText
  simp only [plain, found, Option.all_some, Bool.and_eq_true, Option.isNone_iff_eq_none] at isPlain
  have same := eq_of_represents_string isPlain.1 (each "$ref" value _ found given)
  rw [ofMembers?, found, Option.bind_some, same] at noReference
  cases noReference

end Represents

end ServiceForge.OpenApi.Reference
