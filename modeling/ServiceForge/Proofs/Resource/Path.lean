/-
This file proves that the name of a resource is canonical. It does not depend on the version
that begins a path, on the names of parameters, on parameters between and after the other
segments, or on slashes that part nothing; and a view or an endpoint of a resource has the
name of the resource itself. Only one suffix is taken off, so a second one changes the name.
-/

import Mathlib.Logic.Relation
import ServiceForge.Generation.Bindings
import ServiceForge.Proofs.FilePath
import ServiceForge.Resource.Path

namespace ServiceForge.Resource

open ServiceForge.Generation (hole)
open ServiceForge.Text

/-! ### Named segments -/

/-- The segments that are neither the version nor parameters. -/
def named (segments : List String) : List String :=
  (unversioned segments).filter fun segment => !isParameter segment

/-- The segments without a view or an endpoint at the end. -/
def withoutSuffix (segments : List String) : List String :=
  if segments.getLast?.any isSuffix then segments.dropLast else segments

theorem pathName_eq (path : String) :
    pathName path = join "/" (withoutSuffix ((named (segments '/' path)).map lower)) := rfl

theorem unversioned_append {first : List String} (some : first ≠ []) (second : List String) :
    unversioned (first ++ second) = unversioned first ++ second := by
  cases first with
  | nil => exact absurd rfl some
  | cons head rest =>
    rw [List.cons_append, unversioned, unversioned]
    split <;> rfl

theorem isVersion_of_isParameter {segment : String} (parameter : isParameter segment = true) :
    isVersion segment = false := by
  obtain ⟨begins, -⟩ := Bool.and_eq_true_iff.mp parameter
  obtain ⟨rest, whole⟩ := List.isPrefixOf_iff_prefix.mp begins
  unfold isVersion
  rw [← whole]
  rfl

section Parameters

variable {parameter other : String} (isParameter : isParameter parameter = true)

include isParameter

/-- A parameter that does not begin a path gives it no name. -/
theorem named_append_parameter {first : List String} (some : first ≠ []) (rest : List String) :
    named (first ++ parameter :: rest) = named (first ++ rest) := by
  rw [named, named, unversioned_append some, unversioned_append some, List.filter_append,
    List.filter_append, List.filter_cons_of_neg (by simp [isParameter])]

/-- A parameter gives a path the same name whatever it is called. -/
theorem named_rename (isOther : Resource.isParameter other = true) (first rest : List String) :
    named (first ++ parameter :: rest) = named (first ++ other :: rest) := by
  by_cases some : first = []
  · subst some
    simp [named, unversioned, isVersion_of_isParameter isParameter,
      isVersion_of_isParameter isOther, isParameter, isOther]
  · rw [named_append_parameter isParameter some, named_append_parameter isOther some]

end Parameters

/-- A version gives a path the same name whichever it is. -/
theorem named_version {first second : String} (isFirst : isVersion first = true)
    (isSecond : isVersion second = true) (rest : List String) :
    named (first :: rest) = named (second :: rest) := by
  simp [named, unversioned, isFirst, isSecond]

/-- A suffix is named after all that is before it. -/
theorem named_append_suffix {suffix : String} (isSuffix : isSuffix suffix = true)
    (segments : List String) : named (segments ++ [suffix]) = named segments ++ [suffix] := by
  have plain : isVersion suffix = false ∧ isParameter suffix = false := by
    unfold Resource.isSuffix at isSuffix
    rcases Bool.or_eq_true_iff.mp isSuffix with same | same <;>
      rw [of_decide_eq_true same] <;> decide
  by_cases some : segments = []
  · subst some
    simp [named, unversioned, plain]
  · rw [named, unversioned_append some, List.filter_append]
    simp [named, plain]

/-! ### Segments in their places -/

/-- Whether a segment stands between these parts of a path. -/
structure Borders (before after : String) : Prop where
  before : before = "" ∨ ∃ rest, before = rest ++ "/"
  after : after = "" ∨ ∃ rest, after = "/" ++ rest

theorem segments_append_of_border {before after : String}
    (border : after = "" ∨ ∃ rest, after = "/" ++ rest) :
    segments '/' (before ++ after) = segments '/' before ++ segments '/' after := by
  rcases border with rfl | ⟨rest, rfl⟩
  · rw [String.append_empty]
    exact (List.append_nil _).symm
  · rw [← String.append_assoc, segments_append_slash, segments_slash_append]

/-- A segment between borders is one of the segments of the path. -/
theorem Borders.segments_eq {before after segment : String} (borders : Borders before after)
    (filled : segment ≠ "") (plain : '/' ∉ segment.toList) :
    segments '/' (before ++ segment ++ after) =
      segments '/' before ++ segment :: segments '/' after := by
  rw [segments_append_of_border borders.after]
  have own := segments_of_notMem filled plain
  rcases borders.before with rfl | ⟨rest, rfl⟩
  · rw [String.empty_append, own]
    rfl
  · rw [segments_append_slash, segments_append_slash_empty, own, List.append_assoc]
    rfl

/-! ### Holes -/

/-- A name between braces is a parameter. -/
theorem isParameter_hole (name : String) : isParameter (hole name) = true := by
  have begins : startsWith "\x7b" (hole name) = true := by
    rw [startsWith, List.isPrefixOf_iff_prefix, hole, String.append_assoc, String.toList_append]
    exact List.prefix_append _ _
  have ends : endsWith "\x7d" (hole name) = true := by
    rw [endsWith, List.isSuffixOf_iff_suffix, hole, String.toList_append]
    exact List.suffix_append _ _
  rw [isParameter, begins, ends, Bool.and_self]

theorem hole_ne_empty (name : String) : hole name ≠ "" := by simp [hole]

theorem notMem_hole {name : String} (plain : '/' ∉ name.toList) : '/' ∉ (hole name).toList := by
  simp [hole, plain]

/-! ### Rewrites -/

/-- Whether the last named segment of a path is that of a view or an endpoint, in lowercase. -/
def EndsInSuffix (path : String) : Prop :=
  ∃ last ∈ (named (segments '/' path)).getLast?, isSuffix (lower last) = true

/-- The ways to spell the path of a resource differently. -/
inductive Rewrite : String → String → Prop
  /-- Another version begins the path. -/
  | version {before after first second : String} (borders : Borders before after)
      (leads : segments '/' before = []) (isFirst : isVersion first = true)
      (isSecond : isVersion second = true) (plainFirst : '/' ∉ first.toList)
      (plainSecond : '/' ∉ second.toList) :
      Rewrite (before ++ first ++ after) (before ++ second ++ after)
  /-- A parameter gets another name. -/
  | rename {before after first second : String} (borders : Borders before after)
      (plainFirst : '/' ∉ first.toList) (plainSecond : '/' ∉ second.toList) :
      Rewrite (before ++ hole first ++ after) (before ++ hole second ++ after)
  /-- A slash is put before the path. -/
  | leading (path : String) : Rewrite path ("/" ++ path)
  /-- A slash is put after the path. -/
  | trailing (path : String) : Rewrite path (path ++ "/")
  /-- A slash is repeated. -/
  | repeated (before after : String) : Rewrite (before ++ "/" ++ after) (before ++ "//" ++ after)
  /-- A parameter is put after a segment. -/
  | parameter {before after name : String} (behind : segments '/' before ≠ [])
      (border : after = "" ∨ ∃ rest, after = "/" ++ rest) (plain : '/' ∉ name.toList) :
      Rewrite (before ++ after) (before ++ "/" ++ hole name ++ after)
  /-- A view or an endpoint of the resource is asked for. -/
  | suffix {path suffix : String} (isSuffix : isSuffix suffix = true)
      (other : ¬EndsInSuffix path) : Rewrite path (path ++ "/" ++ suffix)

theorem isVersion_ne_empty {segment : String} (version : isVersion segment = true) :
    segment ≠ "" := by
  rintro rfl
  cases version

theorem lower_of_isSuffix {suffix : String} (isSuffix : isSuffix suffix = true) :
    lower suffix = suffix := by
  rcases Bool.or_eq_true_iff.mp isSuffix with same | same <;>
    rw [of_decide_eq_true same] <;> decide

/-- A suffix that is appended to a path is its last segment. -/
theorem segments_append_suffix {suffix : String} (isSuffix : isSuffix suffix = true)
    (path : String) : segments '/' (path ++ "/" ++ suffix) = segments '/' path ++ [suffix] := by
  rw [segments_append_slash]
  rcases Bool.or_eq_true_iff.mp isSuffix with same | same <;>
    rw [of_decide_eq_true same] <;> rfl

/-- A suffix asked for is taken off again, so what stays is the name of the path before it. -/
theorem pathName_append_suffix {suffix : String} (isSuffix : isSuffix suffix = true)
    (path : String) :
    pathName (path ++ "/" ++ suffix) =
      join "/" ((named (segments '/' path)).map lower) := by
  rw [pathName_eq, segments_append_suffix isSuffix, named_append_suffix isSuffix, List.map_append,
    List.map_singleton, lower_of_isSuffix isSuffix, withoutSuffix, List.getLast?_concat]
  simp [isSuffix]

/-- The last name of a path is a suffix exactly if the path ends in one. -/
theorem getLast?_any_iff (path : String) :
    ((named (segments '/' path)).map lower).getLast?.any isSuffix = true ↔
      EndsInSuffix path := by
  rw [List.getLast?_map, Option.any_map, Option.any_eq_true]
  rfl

instance (path : String) : Decidable (EndsInSuffix path) :=
  decidable_of_iff _ (getLast?_any_iff path)

/-! ### Canonical names -/

/-- No way to spell a path differently changes the name of its resource. -/
theorem Rewrite.pathName_eq {first second : String} (rewrite : Rewrite first second) :
    pathName first = pathName second := by
  have named_only {one other : String}
      (same : named (segments '/' one) = named (segments '/' other)) :
      pathName one = pathName other := by
    rw [Resource.pathName_eq, same, ← Resource.pathName_eq]
  cases rewrite with
  | version borders leads isFirst isSecond plainFirst plainSecond =>
    refine named_only ?_
    rw [borders.segments_eq (isVersion_ne_empty isFirst) plainFirst,
      borders.segments_eq (isVersion_ne_empty isSecond) plainSecond, leads]
    exact named_version isFirst isSecond _
  | rename borders plainFirst plainSecond =>
    refine named_only ?_
    rw [borders.segments_eq (hole_ne_empty _) (notMem_hole plainFirst),
      borders.segments_eq (hole_ne_empty _) (notMem_hole plainSecond)]
    exact named_rename (isParameter_hole _) (isParameter_hole _) _ _
  | leading => exact named_only (congrArg named (segments_slash_append first).symm)
  | trailing => exact named_only (congrArg named (segments_append_slash_empty first).symm)
  | repeated before after =>
    have twice : before ++ "//" = before ++ "/" ++ "/" := by
      rw [String.append_assoc]
      rfl
    refine named_only ?_
    rw [twice, segments_append_slash, segments_append_slash, segments_append_slash_empty]
  | @parameter before after name behind border plain =>
    refine named_only ?_
    rw [segments_append_of_border border, segments_append_of_border border, segments_append_slash,
      segments_of_notMem (hole_ne_empty name) (notMem_hole plain), List.append_assoc,
      List.singleton_append, named_append_parameter (isParameter_hole name) behind]
  | suffix isSuffix other =>
    rw [pathName_append_suffix isSuffix, Resource.pathName_eq, withoutSuffix,
      if_neg (mt (getLast?_any_iff _).mp other)]

theorem join_dropLast_ne {names : List String} {last : String} (isLast : names.getLast? = some last)
    (filled : last ≠ "") : join "/" names.dropLast ≠ join "/" names := by
  obtain ⟨others, rfl⟩ := List.getLast?_eq_some_iff.mp isLast
  rw [List.dropLast_concat]
  by_cases none : others = []
  · subst none
    rw [List.nil_append, join, join, String.intercalate_singleton]
    exact filled.symm
  · rw [FilePath.join_concat none]
    intro same
    have lengths := congrArg String.length same
    rw [String.length_append, String.length_append] at lengths
    have slash : "/".length = 1 := rfl
    omega

/-- However paths are spelled differently, in whatever combination, the name of the resource stays;
and since only one suffix is taken off, a second one changes the name. -/
theorem pathName_canonical :
    (∀ first second, Relation.EqvGen Rewrite first second → pathName first = pathName second) ∧
      ∀ path suffix, isSuffix suffix = true → EndsInSuffix path →
        pathName (path ++ "/" ++ suffix) ≠ pathName path := by
  refine ⟨fun first second related => ?_, fun path suffix isSuffix ends => ?_⟩
  · induction related with
    | rel first second rewrite => exact rewrite.pathName_eq
    | refl path => rfl
    | symm first second _ inductionHypothesis => exact inductionHypothesis.symm
    | trans first second third _ _ toSecond toThird => exact toSecond.trans toThird
  · have dropped := (getLast?_any_iff path).mpr ends
    rw [pathName_append_suffix isSuffix, Resource.pathName_eq, withoutSuffix, if_pos dropped]
    obtain ⟨last, isLast, lastSuffix⟩ := Option.any_eq_true _ _ |>.mp dropped
    refine (join_dropLast_ne isLast ?_).symm
    rintro rfl
    cases lastSuffix

/-- The tags of a server are named alike under another version, with another name of the server,
behind the parameter of a tag, and with their details. -/
theorem pathName_canonical_tags :
    Relation.EqvGen Rewrite "/v2/servers/\x7bserver\x7d/tags"
        "//v3/servers/\x7bid\x7d/tags/\x7btag\x7d/detail" ∧
      pathName "/v2/servers/\x7bserver\x7d/tags" =
        pathName "//v3/servers/\x7bid\x7d/tags/\x7btag\x7d/detail" ∧
      EndsInSuffix "/v2/servers/Detail" ∧
      pathName "/v2/servers/Detail/action" ≠ pathName "/v2/servers/Detail" := by
  have version : Rewrite "/v2/servers/\x7bserver\x7d/tags" "/v3/servers/\x7bserver\x7d/tags" :=
    @Rewrite.version "/" "/servers/\x7bserver\x7d/tags" "v2" "v3"
      ⟨.inr ⟨"", rfl⟩, .inr ⟨"servers/\x7bserver\x7d/tags", rfl⟩⟩ rfl (by decide) (by decide)
      (by decide) (by decide)
  have rename : Rewrite "/v3/servers/\x7bserver\x7d/tags" "/v3/servers/\x7bid\x7d/tags" :=
    @Rewrite.rename "/v3/servers/" "/tags" "server" "id"
      ⟨.inr ⟨"/v3/servers", rfl⟩, .inr ⟨"tags", rfl⟩⟩ (by decide) (by decide)
  have parameter : Rewrite "/v3/servers/\x7bid\x7d/tags"
      "/v3/servers/\x7bid\x7d/tags/\x7btag\x7d" :=
    @Rewrite.parameter "/v3/servers/\x7bid\x7d/tags" "" "tag" (by decide) (.inl rfl) (by decide)
  have suffix : Rewrite "/v3/servers/\x7bid\x7d/tags/\x7btag\x7d"
      "/v3/servers/\x7bid\x7d/tags/\x7btag\x7d/detail" :=
    @Rewrite.suffix "/v3/servers/\x7bid\x7d/tags/\x7btag\x7d" "detail" (by decide) (by decide)
  have leading : Rewrite "/v3/servers/\x7bid\x7d/tags/\x7btag\x7d/detail"
      "//v3/servers/\x7bid\x7d/tags/\x7btag\x7d/detail" :=
    .leading "/v3/servers/\x7bid\x7d/tags/\x7btag\x7d/detail"
  have related := (((Relation.EqvGen.rel _ _ version).trans _ _ _ (.rel _ _ rename)).trans _ _ _
    (.rel _ _ parameter)).trans _ _ _ ((Relation.EqvGen.rel _ _ suffix).trans _ _ _
    (.rel _ _ leading))
  have ends : EndsInSuffix "/v2/servers/Detail" := by decide
  exact ⟨related, pathName_canonical.1 _ _ related, ends,
    pathName_canonical.2 "/v2/servers/Detail" "action" (by decide) ends⟩

end ServiceForge.Resource
