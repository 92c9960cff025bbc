/-
This file proves that the classification names kinds as modules are named: a kind has
one of the known names, or that of the last segment of a path as a module name, and
names of ASCII do not change when they are made names of modules again. A kind has an
empty name only if that segment has neither letters nor numbers, and what is named after
a kind is empty only then.
-/

import ServiceForge.Generation.Request
import ServiceForge.Metadata.Synthesis
import ServiceForge.Proofs.Text.Alphanumeric
import ServiceForge.Proofs.FilePath

namespace ServiceForge

open ServiceForge.OpenApi (Method Operation PlacedOperation Spec)
open ServiceForge.Text

/-! ### Names of kinds -/

theorem Kind.name_ofName (text : String) : (Kind.ofName text).name = text := by
  unfold Kind.ofName
  cases found : Kind.known.find? (·.name = text) with
  | none => rfl
  | some kind => simpa using List.find?_some found

theorem Kind.moduleName_known {kind : Kind} (known : kind ∈ Kind.known) :
    Naming.moduleName kind.name = kind.name := by
  have each : ∀ kind ∈ Kind.known, Naming.moduleName kind.name = kind.name := by decide +kernel
  exact each kind known

namespace Classification

/-- A kind without a name of its own is named after the last segment of the path. -/
theorem kindOn_eq_some {shape : Shape} {method : Method} {kind : Kind}
    (found : kindOn shape method = some kind) :
    kind ∈ Kind.known ∨ method = .put ∧ ∃ last, shape = .plain last ∧ last ≠ "" ∧
      kind = .ofName (Naming.moduleName last) := by
  cases shape with
  | plain last =>
    cases method with
    | put =>
      simp only [kindOn] at found
      split at found
      · cases found
      · next filled =>
        exact Or.inr ⟨rfl, last, rfl, by simpa using filled, (Option.some.inj found).symm⟩
    | _ => cases found <;> exact Or.inl (by decide)
  | _ => cases method <;> cases found <;> exact Or.inl (by decide)

theorem ofPath_eq_known_iff {path : String} {method : Method} {hasChild : Bool} {kind : Kind} :
    ofPath path method hasChild = .known kind ↔
      kindOn (.ofPath (trimEnd (· = '/') path) hasChild) method = some kind := by
  have none (shape : Shape) : kindOn shape .head = none ∧ kindOn shape .options = none ∧
      kindOn shape .trace = none := by cases shape <;> exact ⟨rfl, rfl, rfl⟩
  unfold ofPath
  simp only
  split
  · simp [none]
  · simp [none]
  · simp [none]
  · split
    · next found => simp [found]
    · next found => simp [found]

theorem refine_eq (kind : Kind) (operation : Operation) :
    refine kind operation = kind ∨ refine kind operation = .download ∨
      refine kind operation = .upload := by
  cases kind <;> simp only [refine, true_or] <;> split <;> simp

theorem isAscii_last {path last : String} {hasChild : Bool} (ascii : IsAscii path)
    (shape : Shape.ofPath path hasChild = .plain last) : IsAscii last := by
  unfold Shape.ofPath at shape
  split at shape
  · cases shape
  split at shape
  · cases shape
  split at shape
  · cases shape
  split at shape
  · cases shape
  cases shape
  cases found : (split '/' path).getLast? with
  | none => exact fun character member => absurd member List.not_mem_nil
  | some segment =>
    intro character member
    obtain ⟨piece, inside, rfl⟩ := List.mem_map.mp (List.mem_of_getLast? found)
    rw [List.splitOn_eq_splitOnP] at inside
    rw [Option.getD_some, String.toList_ofList] at member
    exact ascii character (mem_of_mem_splitOnP inside member).1

theorem isAscii_trimEnd {condition : Char → Bool} {path : String} (ascii : IsAscii path) :
    IsAscii (trimEnd condition path) := by
  intro character member
  rw [trimEnd, String.toList_ofList, dropEndWhile, List.mem_reverse] at member
  exact ascii character (List.mem_reverse.mp ((List.dropWhile_suffix condition).subset member))

/-- The name of the kind of an operation is the name of a module already. -/
theorem moduleName_kind {spec : Spec} {placed : PlacedOperation} {kind : Kind}
    (ascii : IsAscii placed.path) (known : ofOperation spec placed = .known kind) :
    Naming.moduleName kind.name = kind.name := by
  have onPath : ∀ {kind : Kind},
      ofPath placed.path placed.method (spec.hasChildItem placed.path) = .known kind →
        Naming.moduleName kind.name = kind.name := by
    intro kind found
    rcases kindOn_eq_some (ofPath_eq_known_iff.mp found) with standard | ⟨-, last, plain, -, rfl⟩
    · exact Kind.moduleName_known standard
    · rw [Kind.name_ofName]
      exact Naming.moduleName_moduleName (isAscii_last (isAscii_trimEnd ascii) plain)
  unfold ofOperation at known
  split at known
  · next first found =>
    split at known
    · cases known
      rcases refine_eq first placed.operation with same | same | same
      · rw [same]
        exact onPath found
      · rw [same]
        exact Kind.moduleName_known (by decide)
      · rw [same]
        exact Kind.moduleName_known (by decide)
    · cases known
      exact onPath found
  · cases known

/-! ### Empty names -/

/-- Whether an operation would be named after a last segment in which there is nothing to name it
after. -/
structure IsUnnamed (path : String) (method : Method) (hasChild : Bool) : Prop where
  method : method = .put
  childless : hasChild = false
  last : ∃ segment ∈ (segments '/' path).getLast?, endsWith "\x7d" segment = false ∧
    ∀ character ∈ segment.toList, isAlphanumeric character = false

theorem endsWith_brace_iff {text : String} :
    endsWith "\x7d" text = true ↔ text.toList.getLast? = some '\x7d' := by
  rw [endsWith, List.isSuffixOf_iff_suffix]
  exact List.singleton_suffix_iff_getLast?_eq_some

/-- What ends a path ends its last piece. -/
theorem endsWith_brace_of_getLast?_split {path last : String} (filled : last ≠ "")
    (isLast : (split '/' path).getLast? = some last) :
    endsWith "\x7d" path = endsWith "\x7d" last := by
  rcases append_of_getLast?_split isLast with rfl | ⟨before, rfl⟩
  · rfl
  · have some : last.toList ≠ [] := fun none => filled (String.toList_eq_nil_iff.mp none)
    rw [Bool.eq_iff_iff, endsWith_brace_iff, endsWith_brace_iff, String.toList_append,
      List.getLast?_append_of_ne_nil _ some]

theorem getLast?_split_of_endsWith {path name : String} (plain : '/' ∉ name.toList)
    (ends : endsWith ("/" ++ name) path = true) : (split '/' path).getLast? = some name := by
  obtain ⟨before, whole⟩ := List.isSuffixOf_iff_suffix.mp ends
  have same : path = String.ofList before ++ "/" ++ name := by
    rw [← String.toList_inj, ← whole]
    simp
  rw [same]
  exact getLast?_split_append_slash plain

/-- A last segment without letters and numbers names no view and no endpoint. -/
theorem ofPath_eq_plain_iff {path last : String} {hasChild : Bool} (filled : last ≠ "")
    (symbols : ∀ character ∈ last.toList, isAlphanumeric character = false) :
    Shape.ofPath path hasChild = .plain last ↔
      (split '/' path).getLast?.getD "" = last ∧ endsWith "\x7d" last = false ∧
        hasChild = false := by
  have found (same : (split '/' path).getLast?.getD "" = last) :
      (split '/' path).getLast? = some last := by
    cases isLast : (split '/' path).getLast? with
    | none =>
      rw [isLast] at same
      exact absurd same.symm filled
    | some other => exact congrArg some (by rwa [isLast] at same)
  constructor
  · intro shape
    unfold Shape.ofPath at shape
    split at shape
    · cases shape
    next open_ =>
    split at shape
    · cases shape
    split at shape
    · cases shape
    split at shape
    · cases shape
    next childless =>
    have same : (split '/' path).getLast?.getD "" = last := Shape.plain.inj shape
    rw [endsWith_brace_of_getLast?_split filled (found same)] at open_
    exact ⟨same, by simpa using open_, by simpa using childless⟩
  · rintro ⟨same, notItem, childless⟩
    have isLast := found same
    have apart (name : String) (letter : Char) (plain : '/' ∉ name.toList)
        (member : letter ∈ name.toList) (isLetter : isAlphanumeric letter = true) :
        endsWith ("/" ++ name) path = false := by
      refine Bool.eq_false_iff.mpr fun ends => ?_
      have other := getLast?_split_of_endsWith plain ends
      rw [isLast] at other
      rw [symbols letter (Option.some.inj other ▸ member)] at isLetter
      cases isLetter
    have detail : endsWith "/detail" path = false :=
      apart "detail" 'd' (by decide) (by decide) (by decide)
    have action : endsWith "/action" path = false :=
      apart "action" 'a' (by decide) (by decide) (by decide)
    unfold Shape.ofPath
    rw [endsWith_brace_of_getLast?_split filled isLast, notItem, detail, action, childless, same]
    rfl

/-- A kind without a name is named after a segment of which no module name can be made. -/
theorem kindOn_unnamed_iff {shape : Shape} {method : Method} :
    (∃ kind, kindOn shape method = some kind ∧ kind.name = "") ↔
      method = .put ∧ ∃ last, shape = .plain last ∧ last ≠ "" ∧ Naming.moduleName last = "" := by
  constructor
  · rintro ⟨kind, found, unnamed⟩
    rcases kindOn_eq_some found with standard | ⟨put, last, plain, filled, rfl⟩
    · have each : ∀ kind ∈ Kind.known, kind.name ≠ "" := by decide
      exact absurd unnamed (each kind standard)
    · exact ⟨put, last, plain, filled, (Kind.name_ofName _).symm.trans unnamed⟩
  · rintro ⟨rfl, last, rfl, filled, unnamed⟩
    refine ⟨.ofName (Naming.moduleName last), ?_, (Kind.name_ofName _).trans unnamed⟩
    simp [kindOn, filled]

theorem ofPath_unnamed_iff {path : String} {method : Method} {hasChild : Bool} :
    (∃ kind, ofPath path method hasChild = .known kind ∧ kind.name = "") ↔
      IsUnnamed path method hasChild := by
  simp only [ofPath_eq_known_iff, kindOn_unnamed_iff, Naming.moduleName_eq_empty_iff]
  constructor
  · rintro ⟨rfl, last, plain, filled, symbols⟩
    obtain ⟨same, notItem, childless⟩ := (ofPath_eq_plain_iff filled symbols).mp plain
    rw [getLast?_split_trimEnd] at same
    refine ⟨rfl, childless, last, ?_, notItem, symbols⟩
    cases isLast : (segments '/' path).getLast? with
    | none =>
      rw [isLast] at same
      exact absurd same.symm filled
    | some other =>
      rw [isLast] at same
      exact congrArg some same
  · rintro ⟨put, childless, last, isLast, notItem, symbols⟩
    have filled : last ≠ "" := by
      have kept := (List.mem_filter.mp (List.mem_of_getLast? isLast)).2
      simpa using kept
    refine ⟨put, last, (ofPath_eq_plain_iff filled symbols).mpr ⟨?_, notItem, childless⟩, filled,
      symbols⟩
    rw [getLast?_split_trimEnd, Option.mem_def.mp isLast]
    rfl

theorem message_ne_empty (reason : SkipReason) : reason.message ≠ "" := by
  intro empty
  cases reason with
  | unsupported method => exact absurd (String.append_eq_empty_iff.mp empty).2 (by decide)
  | pathShape path method => exact absurd (String.append_eq_empty_iff.mp empty).2 (by decide)

/-! ### Names made of kinds -/

/-- A kind from the classification gives an empty module name only if its own name is empty. -/
theorem moduleName_name_eq_empty_iff {path : String} {method : Method} {hasChild : Bool}
    {kind : Kind} (known : ofPath path method hasChild = .known kind) :
    Naming.moduleName kind.name = "" ↔ kind.name = "" := by
  rcases kindOn_eq_some (ofPath_eq_known_iff.mp known) with standard | ⟨-, last, -, -, rfl⟩
  · rw [Kind.moduleName_known standard]
  · rw [Kind.name_ofName]
    exact Naming.moduleName_moduleName_eq_empty_iff

/-- An operation gets a kind without a name exactly if it is a `put` on a path without children
whose last segment is no parameter and has neither letters nor numbers. A skipped operation has a
reason that says something. What is named after the kind, a key in the metadata or a module, has no
name only if the kind has none. -/
theorem names_empty_iff (path : String) (method : Method) (hasChild : Bool) :
    ((∃ kind, ofPath path method hasChild = .known kind ∧ kind.name = "") ↔
        IsUnnamed path method hasChild) ∧
      (∀ reason, ofPath path method hasChild = .skipped reason → reason.message ≠ "") ∧
      ∀ kind, ofPath path method hasChild = .known kind →
        (∀ placed operation leaf, ∀ entry ∈ Metadata.entriesOf placed operation kind leaf,
          Metadata.isActionUnion kind (Metadata.bodySchema? placed) = false →
            (entry.1 = "" ↔ kind.name = "")) ∧
        ∀ request : Generation.OperationRequest,
          (∀ name ∈ request.parameters.moduleName.or request.key,
            name = Naming.moduleName kind.name) →
              (request.moduleName kind = "" ↔ kind.name = "") := by
  refine ⟨ofPath_unnamed_iff, fun reason _ => message_ne_empty reason, fun kind known =>
    ⟨fun placed operation leaf entry member regular => ?_, fun request own => ?_⟩⟩
  · unfold Metadata.entriesOf at member
    simp only [regular, Bool.false_eq_true, if_false, List.mem_singleton] at member
    rw [member]
    exact moduleName_name_eq_empty_iff known
  · unfold Generation.OperationRequest.moduleName
    cases given : request.parameters.moduleName.or request.key with
    | none => exact moduleName_name_eq_empty_iff known
    | some name =>
      rw [Option.getD_some, own name given]
      exact Naming.moduleName_moduleName_eq_empty_iff.trans (moduleName_name_eq_empty_iff known)

theorem names_empty_iff_forceDown :
    ofPath "/v2/os-services/force-down" .put false = .known (.other "force_down") ∧
      ¬ IsUnnamed "/v2/os-services/force-down" .put false ∧
      ∀ request : Generation.OperationRequest, request.parameters.moduleName = none →
        request.key = some "force_down" → request.moduleName (.other "force_down") ≠ "" := by
  have known : ofPath "/v2/os-services/force-down" .put false = .known (.other "force_down") := by
    decide +kernel
  obtain ⟨unnamed, -, names⟩ := names_empty_iff "/v2/os-services/force-down" .put false
  refine ⟨known, fun isUnnamed => ?_, fun request none key => ?_⟩
  · obtain ⟨kind, found, empty⟩ := unnamed.mpr isUnnamed
    rw [known] at found
    cases found
    exact absurd empty (by decide)
  · refine ((names _ known).2 request fun name isName => ?_).not.mpr (by decide)
    rw [none, key] at isName
    have own : Naming.moduleName "force_down" = "force_down" := by decide +kernel
    exact (Option.some.inj isName).symm.trans own.symm

/-- A last segment of symbols alone gives a kind without a name. -/
theorem classified_without_name : ofPath "/v2/-" .put false = .known (.other "") := by
  decide +kernel

end Classification

end ServiceForge
