/-
This file proves that the document of a route map has the routes and nothing else. Every
path and method of a route has one operation, which stands for the routes that have both:
their schemas are the schema of the operation or branches of a union, told apart by what
is known of the routes.
-/

import Mathlib.Data.List.Flatten
import Mathlib.Data.List.Forall2
import Mathlib.Data.List.Nodup
import ServiceForge.Proofs.FilePath
import ServiceForge.Proofs.Repetitions
import ServiceForge.Proofs.Text.Words
import ServiceForge.Route.Extraction

namespace ServiceForge.Text

theorem afterStart?_eq_some {start text rest : String} :
    afterStart? start text = some rest ↔ text = start ++ rest := by
  unfold afterStart? startsWith
  rw [Option.ite_none_right_eq_some, List.isPrefixOf_iff_prefix, Option.some_inj]
  constructor
  · rintro ⟨⟨characters, whole⟩, rfl⟩
    refine String.ext_iff.mpr ?_
    rw [← whole]
    simp
  · rintro rfl
    simp

theorem beforeEnd?_eq_some {finish text before : String} :
    beforeEnd? finish text = some before ↔ text = before ++ finish := by
  unfold beforeEnd? endsWith
  rw [Option.ite_none_right_eq_some, List.isSuffixOf_iff_suffix, Option.some_inj]
  constructor
  · rintro ⟨⟨characters, whole⟩, rfl⟩
    refine String.ext_iff.mpr ?_
    rw [← whole]
    simp
  · rintro rfl
    simp

end ServiceForge.Text

namespace ServiceForge.Route

open ServiceForge.OpenApi (Operation Schema annotationKey annotations?)

/-! ### Annotations -/

/-- The annotation with a name among the keywords of a schema. -/
def annotation? (rest : OrderedMap Json) (name : String) : Option Json :=
  (annotations? rest).bind fun annotations => OrderedMap.get? annotations name

/-- Whether annotations can be set: there are none, or they are an object. -/
def IsOpen (rest : OrderedMap Json) : Prop :=
  ∀ value, rest.get? annotationKey = some value → ∃ members, value = .object members

/-- An annotation is set in the object of annotations, which is new if there is none. -/
theorem annotate_of_isOpen {rest : OrderedMap Json} (isOpen : IsOpen rest) (key value : String) :
    annotate rest key value = rest.insert annotationKey
      (.object (OrderedMap.insert ((annotations? rest).getD []) key (.string value))) := by
  unfold annotate annotations?
  cases held : rest.get? annotationKey with
  | none => rfl
  | some present =>
    obtain ⟨members, rfl⟩ := isOpen present held
    rfl

/-- Annotations that are no object are left as they are. -/
theorem annotate_of_not_isOpen {rest : OrderedMap Json} (closed : ¬ IsOpen rest)
    (key value : String) : annotate rest key value = rest := by
  unfold annotate
  split
  · next none =>
    refine absurd (fun present held => ?_) closed
    cases none.symm.trans held
  · next members held =>
    refine absurd (fun present other => ⟨members, ?_⟩) closed
    exact Option.some.inj (other.symm.trans held)
  · rfl

/-- Whether keywords are others with annotations set, and the same if none can or need be set. -/
structure Annotated (added : String → Option String) (rest annotated : OrderedMap Json) :
    Prop where
  others : ∀ key ≠ annotationKey, annotated.get? key = rest.get? key
  isOpen : IsOpen rest → IsOpen annotated
  set : IsOpen rest → ∀ name,
    annotation? annotated name = ((added name).map .string).or (annotation? rest name)
  closed : ¬ IsOpen rest → annotated = rest
  unchanged : (∀ name, added name = none) → annotated = rest

namespace Annotated

variable {added more : String → Option String} {rest annotated other : OrderedMap Json}

theorem refl (rest : OrderedMap Json) : Annotated (fun _ => none) rest rest :=
  ⟨fun _ _ => rfl, id, fun _ _ => rfl, fun _ => rfl, fun _ => rfl⟩

theorem congr (annotates : Annotated added rest annotated) (same : ∀ name, added name = more name) :
    Annotated more rest annotated := funext same ▸ annotates

/-- Annotations that are added one after another are all there, and the later ones count. -/
theorem trans (first : Annotated added rest annotated) (second : Annotated more annotated other) :
    Annotated (fun name => (more name).or (added name)) rest other := by
  refine ⟨fun key apart => (second.others key apart).trans (first.others key apart),
    fun isOpen => second.isOpen (first.isOpen isOpen), fun isOpen name => ?_, fun closed => ?_,
    fun nothing => ?_⟩
  · rw [second.set (first.isOpen isOpen), first.set isOpen, ← Option.or_assoc, Option.map_or]
  · have same := first.closed closed
    rw [← same] at closed
    rw [second.closed closed, same]
  · have neither := fun name => Option.or_eq_none_iff.mp (nothing name)
    rw [second.unchanged fun name => (neither name).1, first.unchanged fun name => (neither name).2]

theorem annotate (rest : OrderedMap Json) (key value : String) :
    Annotated (fun name => if name = key then some value else none) rest
      (annotate rest key value) := by
  by_cases isOpen : IsOpen rest
  · rw [annotate_of_isOpen isOpen]
    refine ⟨fun other apart => ?_, fun _ present held => ?_, fun _ name => ?_,
      fun closed => absurd isOpen closed, fun nothing => ?_⟩
    · rw [OrderedMap.get?_insert, if_neg apart]
    · rw [OrderedMap.get?_insert, if_pos rfl] at held
      exact ⟨_, (Option.some.inj held).symm⟩
    · unfold annotation? annotations?
      rw [OrderedMap.get?_insert, if_pos rfl]
      show OrderedMap.get? (OrderedMap.insert _ key (Json.string value)) name = _
      rw [OrderedMap.get?_insert]
      by_cases same : name = key
      · rw [if_pos same, if_pos same]
        rfl
      · rw [if_neg same, if_neg same]
        cases (rest.get? annotationKey).bind Json.members? <;> rfl
    · exact absurd (nothing key) (by rw [if_pos rfl]; exact nofun)
  · rw [annotate_of_not_isOpen isOpen]
    exact ⟨fun _ _ => rfl, id, fun here => absurd here isOpen, fun _ => rfl, fun _ => rfl⟩

theorem annotateSome (key : String) (value : Option String) (rest : OrderedMap Json) :
    Annotated (fun name => if name = key then value else none) rest
      (annotateSome key value rest) := by
  cases value with
  | none =>
    have nothing : (fun name => if name = key then none else none) =
        (fun _ => none : String → Option String) := funext fun _ => ite_self none
    rw [nothing]
    exact refl rest
  | some value => exact annotate rest key value

end Annotated

/-- What is known of a route in a union: its versions and, among actions, the name of its action. -/
def known (route : Route) (acting : Bool) (name : String) : Option String :=
  if name = "action-name" then if acting then route.action else none
  else if name = "max-ver" then route.maxVersion
  else if name = "min-ver" then route.minVersion
  else none

/-- Whether a schema is another one with annotations for what is known of a route. -/
structure IsBranch (acting : Bool) (entry : Route × Schema) (branch : Schema) : Prop where
  same : branch = { entry.2 with rest := branch.rest }
  annotated : Annotated (entry.1.known acting) entry.2.rest branch.rest

/-- A branch is annotated with the versions that its route is known for. -/
theorem annotated_annotateVersions (route : Route) (rest : OrderedMap Json) :
    Annotated (route.known false) rest (annotateVersions route rest) := by
  have versions := (Annotated.annotateSome "min-ver" route.minVersion rest).trans
    (.annotateSome "max-ver" route.maxVersion _)
  refine versions.congr fun name => ?_
  by_cases max : name = "max-ver"
  · subst max
    simp [known]
  by_cases min : name = "min-ver"
  · subst min
    simp [known]
  · simp [known, max, min]

/-- A branch by version is the schema of its route with the versions. -/
theorem isBranch_versionBranch (entry : Route × Schema) :
    IsBranch false entry (versionBranch entry.1 entry.2) :=
  ⟨rfl, annotated_annotateVersions entry.1 entry.2.rest⟩

/-- A branch by action is the schema of its route with the action. -/
theorem isBranch_actionBranch (entry : Route × Schema) :
    IsBranch true entry (actionBranch entry.1 entry.2) := by
  have action := (annotated_annotateVersions entry.1 entry.2.rest).trans
    (.annotateSome "action-name" entry.1.action _)
  refine ⟨rfl, action.congr fun name => ?_⟩
  by_cases own : name = "action-name"
  · subst own
    simp [known]
  · simp [known, own]

/-! ### Schemas that differ -/

/-- Whether two schemas are the same or compare as equal. -/
def Same (first second : Schema) : Prop := first = second ∨ first.equal second = true

section Distinct

variable {seen : List Schema} {entries : List (Route × Schema)}

/-- Some of the routes are kept, in their order. -/
theorem distinctSchemas_sublist : (distinctSchemas seen entries).Sublist entries := by
  fun_induction distinctSchemas with
  | case1 => exact List.Sublist.refl []
  | case2 seen route schema rest known inductionHypothesis => exact inductionHypothesis.cons _
  | case3 seen route schema rest new inductionHypothesis => exact inductionHypothesis.cons_cons _

/-- Each schema was seen before or is kept. -/
theorem exists_same_of_mem {entry : Route × Schema} (member : entry ∈ entries) :
    (∃ other ∈ seen, other.equal entry.2 = true) ∨
      ∃ kept ∈ distinctSchemas seen entries, Same kept.2 entry.2 := by
  fun_induction distinctSchemas with
  | case1 => cases member
  | case2 seen route schema rest known inductionHypothesis =>
    rcases List.mem_cons.mp member with rfl | later
    · exact Or.inl (List.any_eq_true.mp known)
    · exact inductionHypothesis later
  | case3 seen route schema rest new inductionHypothesis =>
    rcases List.mem_cons.mp member with rfl | later
    · exact Or.inr ⟨_, List.mem_cons_self, Or.inl rfl⟩
    · rcases inductionHypothesis later with ⟨other, held, same⟩ | ⟨kept, held, same⟩
      · rcases List.mem_append.mp held with early | here
        · exact Or.inl ⟨other, early, same⟩
        · rw [List.mem_singleton.mp here] at same
          exact Or.inr ⟨_, List.mem_cons_self, Or.inr same⟩
      · exact Or.inr ⟨kept, List.mem_cons_of_mem _ held, same⟩

/-- No schema is kept that is equal to one that was seen before. -/
theorem not_equal_of_seen {kept : Route × Schema} (member : kept ∈ distinctSchemas seen entries)
    {other : Schema} (early : other ∈ seen) : other.equal kept.2 = false := by
  fun_induction distinctSchemas with
  | case1 => cases member
  | case2 seen route schema rest known inductionHypothesis => exact inductionHypothesis member early
  | case3 seen route schema rest new inductionHypothesis =>
    rcases List.mem_cons.mp member with rfl | later
    · exact Bool.eq_false_iff.mpr fun equal => new (List.any_eq_true.mpr ⟨other, early, equal⟩)
    · exact inductionHypothesis later (List.mem_append_left _ early)

/-- Kept schemas differ from those before them. -/
theorem distinctSchemas_pairwise :
    (distinctSchemas seen entries).Pairwise fun first second =>
      first.2.equal second.2 = false := by
  fun_induction distinctSchemas with
  | case1 => exact List.Pairwise.nil
  | case2 seen route schema rest known inductionHypothesis => exact inductionHypothesis
  | case3 seen route schema rest new inductionHypothesis =>
    refine List.pairwise_cons.mpr ⟨fun kept member => ?_, inductionHypothesis⟩
    exact not_equal_of_seen member (List.mem_append_right _ List.mem_cons_self)

end Distinct

/-! ### Schemas of several routes -/

/-- Whether a schema stands for those of routes: it is the schema of all of them, or a union with
branches for some of them, in their order, among which are the schemas of all. Routes of versions
have one branch for each schema that differs from those before it. -/
inductive StandsFor (acting : Bool) (entries : List (Route × Schema)) : Schema → Prop
  | one {schema : Schema} (held : ∃ entry ∈ entries, entry.2 = schema)
      (all : ∀ entry ∈ entries, Same schema entry.2) : StandsFor acting entries schema
  | several {chosen : List (Route × Schema)} {branches : List Schema}
      (inOrder : chosen.Sublist entries)
      (all : ∀ entry ∈ entries, ∃ kept ∈ chosen, Same kept.2 entry.2)
      (differ : acting = false →
        chosen.Pairwise fun first second => first.2.equal second.2 = false)
      (each : List.Forall₂ (IsBranch acting) chosen branches) :
      StandsFor acting entries
        (union branches (if acting then "action" else "microversion"))

/-- Whether an optional schema stands for those of routes, and there is none if they have none. -/
structure Combines (acting : Bool) (entries : List (Route × Schema)) (combined : Option Schema) :
    Prop where
  absent : combined = none ↔ entries = []
  standsFor : ∀ schema, combined = some schema → StandsFor acting entries schema

theorem forall₂_map {α β : Type} {related : α → β → Prop} {convert : α → β} {items : List α}
    (each : ∀ item, related item (convert item)) : List.Forall₂ related items (items.map convert) :=
  List.forall₂_map_right_iff.mpr (List.forall₂_same.mpr fun item _ => each item)

/-- Schemas of routes without actions combine by version. -/
theorem combines_combine (entries : List (Route × Schema)) :
    Combines false entries (combine entries) := by
  have covered : ∀ entry ∈ entries, ∃ kept ∈ distinctSchemas [] entries, Same kept.2 entry.2 :=
    fun entry member => (exists_same_of_mem member).resolve_left fun ⟨_, held, _⟩ =>
      List.not_mem_nil held
  have inOrder : (distinctSchemas [] entries).Sublist entries := distinctSchemas_sublist
  have differ : (distinctSchemas [] entries).Pairwise fun first second =>
      first.2.equal second.2 = false := distinctSchemas_pairwise
  unfold combine
  generalize distinctSchemas [] entries = distinct at covered inOrder differ
  cases distinct with
  | nil =>
    have none : entries = [] := List.eq_nil_iff_forall_not_mem.mpr fun entry member => by
      obtain ⟨kept, held, -⟩ := covered entry member
      cases held
    exact ⟨iff_of_true rfl none, nofun⟩
  | cons first rest =>
    have filled : entries ≠ [] := List.ne_nil_of_mem (inOrder.subset List.mem_cons_self)
    cases rest with
    | nil =>
      refine ⟨iff_of_false nofun filled, ?_⟩
      rintro schema ⟨⟩
      refine .one ⟨first, inOrder.subset List.mem_cons_self, rfl⟩ fun entry member => ?_
      obtain ⟨kept, held, same⟩ := covered entry member
      rwa [List.mem_singleton.mp held] at same
    | cons second rest =>
      refine ⟨iff_of_false nofun filled, ?_⟩
      rintro schema ⟨⟩
      exact .several inOrder covered (fun _ => differ) (forall₂_map isBranch_versionBranch)

/-- Schemas of routes with actions combine by action. -/
theorem combines_actions {entries : List (Route × Schema)} (filled : entries ≠ []) :
    Combines true entries
      (some (union (entries.map fun (route, schema) => actionBranch route schema) "action")) := by
  refine ⟨iff_of_false nofun filled, ?_⟩
  rintro schema ⟨⟩
  exact .several (List.Sublist.refl entries) (fun entry member => ⟨entry, member, Or.inl rfl⟩) nofun
    (forall₂_map isBranch_actionBranch)

/-- Whether a request of one of the routes with a schema selects an action. -/
def isActing (entries : List (Route × Schema)) : Bool :=
  entries.any fun entry => entry.1.action.isSome

/-- Requests combine by action if one of the routes has an action, or else by version. -/
theorem combines_combinedRequest (routes : List Route) :
    Combines (isActing (withSchema Route.requestSchema routes))
      (withSchema Route.requestSchema routes) (combinedRequest routes) := by
  simp only [combinedRequest]
  split
  · next acting =>
    obtain ⟨entry, member, -⟩ := List.any_eq_true.mp acting
    have isActing : isActing (withSchema Route.requestSchema routes) = true := acting
    rw [isActing]
    exact combines_actions (List.ne_nil_of_mem member)
  · next apart =>
    have isActing : isActing (withSchema Route.requestSchema routes) = false :=
      Bool.eq_false_iff.mpr apart
    rw [isActing]
    exact combines_combine _

/-! ### Operations -/

/-- The segment that stands for a parameter. -/
def mark (name : String) : String := "\x7b" ++ name ++ "\x7d"

/-- The name of the parameter that a segment stands for. -/
def marked? (segment : String) : Option String :=
  (Text.afterStart? "\x7b" segment).bind (Text.beforeEnd? "\x7d")

theorem marked?_eq_some {segment name : String} :
    marked? segment = some name ↔ segment = mark name := by
  simp only [marked?, Option.bind_eq_some_iff, Text.afterStart?_eq_some, Text.beforeEnd?_eq_some,
    mark, String.append_assoc]
  constructor
  · rintro ⟨rest, rfl, rfl⟩
    rfl
  · rintro rfl
    exact ⟨_, rfl, rfl⟩

/-- Whether a segment stands for a parameter. -/
def IsMarked (segment : String) : Prop := ∃ name, segment = mark name

instance (segment : String) : Decidable (IsMarked segment) :=
  decidable_of_iff ((marked? segment).isSome = true) <| by
    simp only [Option.isSome_iff_exists, marked?_eq_some, IsMarked]

theorem map_mark_filterMap (segments : List String) :
    (segments.filterMap marked?).map mark = segments.filter fun segment => IsMarked segment := by
  induction segments with
  | nil => rfl
  | cons first rest inductionHypothesis =>
    by_cases named : IsMarked first
    · obtain ⟨name, rfl⟩ := named
      have kept : decide (IsMarked (mark name)) = true := decide_eq_true ⟨name, rfl⟩
      rw [List.filterMap_cons_some (marked?_eq_some.mpr rfl), List.map_cons, inductionHypothesis,
        List.filter_cons, if_pos kept]
    · have none : marked? first = none := Option.eq_none_iff_forall_ne_some.mpr fun name held =>
        named ⟨name, marked?_eq_some.mp held⟩
      have dropped : ¬ decide (IsMarked first) = true := mt of_decide_eq_true named
      rw [List.filterMap_cons_none none, inductionHypothesis, List.filter_cons, if_neg dropped]

/-! ### Paths -/

/-- Whether a path has one slash before each of the segments, none of which is empty. -/
def IsPath (segments : List String) (path : String) : Prop :=
  path = "/" ++ Text.join "/" segments ∧ ∀ segment ∈ segments, segment ≠ "" ∧ '/' ∉ segment.toList

theorem isPath_normalPath (path : String) :
    IsPath (Text.segments '/' path) (normalPath path) := by
  refine ⟨rfl, fun segment member => ?_⟩
  obtain ⟨member, filled⟩ := List.mem_filter.mp member
  obtain ⟨piece, inside, rfl⟩ := List.mem_map.mp member
  refine ⟨by simpa using filled, fun slash => ?_⟩
  rw [List.splitOn_eq_splitOnP] at inside
  rw [String.toList_ofList] at slash
  have other := (Text.mem_of_mem_splitOnP inside slash).2
  exact absurd other (by decide)

theorem filterMap_split {segments : List String} {path : String} (isPath : IsPath segments path) :
    (Text.split '/' path).filterMap marked? = segments.filterMap marked? := by
  obtain ⟨whole, plain⟩ := isPath
  have begins : path = "" ++ "/" ++ Text.join "/" segments := whole
  have unmarked : marked? "" = none := by decide
  rw [begins, FilePath.split_append_slash, FilePath.split_empty, List.singleton_append,
    List.filterMap_cons_none unmarked]
  by_cases some : segments = []
  · subst some
    exact (congrArg _ FilePath.split_empty).trans (List.filterMap_cons_none unmarked)
  · rw [FilePath.split_join some fun segment member => (plain segment member).2]

/-- The parameters of an operation are those that its path marks, in the same order. -/
theorem map_mark_pathParameters {segments : List String} {path : String}
    (isPath : IsPath segments path) (prose : Option OperationProse) :
    (pathParameters path prose).map (fun parameter => mark parameter.name) =
      segments.filter fun segment => IsMarked segment := by
  rw [← map_mark_filterMap, ← filterMap_split isPath]
  simp only [pathParameters, List.map_map]
  rfl

/-! ### What an operation stands for -/

/-- Whether an operation stands for routes: it has the parameters of their path, and its schemas
stand for theirs. -/
structure Represents (path : String) (routes : List Route) (operation : Operation) : Prop where
  parameters : ∀ segments, IsPath segments path →
    operation.parameters.map (fun parameter => mark parameter.name) =
      segments.filter fun segment => IsMarked segment
  located : ∀ parameter ∈ operation.parameters, parameter.location = .path ∧ parameter.required
  request : Combines (isActing (withSchema Route.requestSchema routes))
    (withSchema Route.requestSchema routes)
    (operation.requestContent.bind fun content => content.schema? OpenApi.MediaType.json)
  response : ∃ status response, operation.responses = [(status, response)] ∧
    Combines false (withSchema Route.responseSchema routes)
      (response.content.schema? OpenApi.MediaType.json)

theorem schema?_jsonContent (schema : Schema) :
    (jsonContent schema).schema? OpenApi.MediaType.json = some schema := by
  simp [jsonContent, OpenApi.Content.schema?, OrderedMap.get?_cons]

theorem requestSchema_operation (path id : String) (prose : Option OperationProse)
    (routes : List Route) : ((operation path id prose routes).requestContent.bind fun content =>
      content.schema? OpenApi.MediaType.json) = combinedRequest routes := by
  simp only [operation, Operation.requestContent, Option.map_map, Option.bind_map,
    Function.comp_def, schema?_jsonContent, Option.bind_fun_some]

theorem schema?_responseContent (schema : Option Schema) :
    OpenApi.Content.schema? ((schema.map jsonContent).getD []) OpenApi.MediaType.json = schema := by
  cases schema with
  | none => rfl
  | some schema => exact schema?_jsonContent schema

/-- An operation represents the routes that it was combined from. -/
theorem represents_operation (path id : String) (prose : Option OperationProse)
    (routes : List Route) : Represents path routes (operation path id prose routes) where
  parameters _ isPath := map_mark_pathParameters isPath prose
  located parameter member := by
    obtain ⟨name, -, rfl⟩ := List.mem_map.mp member
    exact ⟨rfl, rfl⟩
  request := by
    rw [requestSchema_operation]
    exact combines_combinedRequest routes
  response := by
    refine ⟨_, _, rfl, ?_⟩
    rw [schema?_responseContent]
    exact combines_combine _

end ServiceForge.Route

namespace ServiceForge.RouteMap

open ServiceForge.OpenApi (Method Operation PathItem PlacedOperation Spec)
open ServiceForge.Route (IsPath Represents normalPath)

/-! ### Documents -/

variable (routeMap : RouteMap) (prose : Option Prose)

/-- The paths of routes, with repetitions. -/
def paths : List String := routeMap.routes.map fun route => normalPath route.path

/-- A document has each path of the map once, in the order of its first route. -/
theorem keys_extract :
    OrderedMap.keys (routeMap.extract prose).paths = routeMap.paths.eraseDups := by
  simp only [extract, OrderedMap.keys, List.map_map, Function.comp_def, List.map_id', paths]

section Operations

variable {routeMap prose} {path : String} {method : Method}

/-- A path and method have routes if a route leads to them once its path is normal. -/
theorem group_ne_nil :
    routeMap.group path method ≠ [] ↔
      ∃ route ∈ routeMap.routes, normalPath route.path = path ∧ route.method = method := by
  simp [group, List.filter_eq_nil_iff]

theorem mem_paths_of_group (some : routeMap.group path method ≠ []) : path ∈ routeMap.paths := by
  obtain ⟨route, member, onPath, -⟩ := group_ne_nil.mp some
  exact List.mem_map.mpr ⟨route, member, onPath⟩

/-- The operation of a path and method is combined from all of their routes. -/
theorem operation?_eq_some {operation : Operation} :
    routeMap.operation? prose path method = some operation ↔
      routeMap.group path method ≠ [] ∧ Route.operation path (Route.operationId path method)
        (prose.bind fun prose => prose.operations.get? (Route.operationId path method))
        (routeMap.group path method) = operation := by
  simp only [operation?, Option.ite_none_left_eq_some, Option.some.injEq, List.isEmpty_iff]

/-- There is an operation for exactly the paths and methods that have a route. -/
theorem isSome_operation? :
    (routeMap.operation? prose path method).isSome = true ↔ routeMap.group path method ≠ [] := by
  simp only [Option.isSome_iff_exists, operation?_eq_some, exists_and_left, exists_eq', and_true]

end Operations

theorem filterMap_map_of_isSome {α β γ : Type} {find : α → Option β} {make : α → γ}
    (items : List α) : (items.filterMap fun item => (find item).map fun _ => make item) =
      (items.filter fun item => (find item).isSome).map make := by
  induction items with
  | nil => rfl
  | cons first rest inductionHypothesis =>
    cases found : find first <;> simp [found, inductionHypothesis]

/-- The paths and methods of the operations, in order. -/
theorem map_operations_extract :
    ((routeMap.extract prose).operations.map fun placed => (placed.path, placed.method)) =
      routeMap.paths.eraseDups.flatMap fun path =>
        (Method.all.filter fun method => (routeMap.operation? prose path method).isSome).map
          fun method => (path, method) := by
  simp only [extract, Spec.operations, PathItem.operations, List.flatMap_map, List.map_flatMap,
    List.map_filterMap, paths, Option.map_map, Function.comp_def, filterMap_map_of_isSome]

/-- The operations of a document are at exactly the paths and methods of its routes. -/
theorem mem_map_operations {path : String} {method : Method} :
    (path, method) ∈
        (routeMap.extract prose).operations.map (fun placed => (placed.path, placed.method)) ↔
      ∃ route ∈ routeMap.routes, normalPath route.path = path ∧ route.method = method := by
  have whole : method ∈ Method.all := by cases method <;> decide
  rw [map_operations_extract, ← group_ne_nil, ← isSome_operation?]
  simp only [List.mem_flatMap, List.mem_eraseDups, List.mem_map, List.mem_filter, Prod.mk.injEq]
  constructor
  · rintro ⟨_, -, _, ⟨-, given⟩, rfl, rfl⟩
    exact given
  · intro given
    exact ⟨path, mem_paths_of_group (isSome_operation?.mp given), method, ⟨whole, given⟩, rfl, rfl⟩

/-- No two operations of a document share a path and method. -/
theorem nodup_map_operations :
    ((routeMap.extract prose).operations.map fun placed => (placed.path, placed.method)).Nodup := by
  rw [map_operations_extract, List.nodup_flatMap]
  refine ⟨fun path _ => ?_, ?_⟩
  · have methods : Method.all.Nodup := by decide
    exact (methods.filter _).map fun first second same => congrArg Prod.snd same
  · refine (eraseDups_pairwise routeMap.paths).imp fun {first second} before => ?_
    refine List.disjoint_left.mpr fun pair inFirst inSecond => ?_
    obtain ⟨_, -, rfl⟩ := List.mem_map.mp inFirst
    obtain ⟨_, -, same⟩ := List.mem_map.mp inSecond
    cases same
    exact Nat.lt_irrefl _ before

section Placed

variable {placed : PlacedOperation} (member : placed ∈ (routeMap.extract prose).operations)
include member

/-- The operations are made of the routes that have their path and method. -/
theorem operation?_of_mem :
    routeMap.operation? prose placed.path placed.method = some placed.operation := by
  obtain ⟨⟨path, item⟩, listed, member⟩ := List.mem_flatMap.mp member
  obtain ⟨⟨method, operation⟩, given, rfl⟩ := List.mem_map.mp member
  obtain ⟨path, -, same⟩ := List.mem_map.mp listed
  cases same
  obtain ⟨other, -, given⟩ := List.mem_filterMap.mp given
  obtain ⟨operation, made, same⟩ := Option.map_eq_some_iff.mp given
  cases same
  exact made

/-- Each operation of a document represents the routes at its path and method. -/
theorem represents_of_mem :
    Represents placed.path (routeMap.group placed.path placed.method) placed.operation := by
  obtain ⟨-, made⟩ := operation?_eq_some.mp (operation?_of_mem routeMap prose member)
  rw [← made]
  exact Route.represents_operation placed.path _ _ _

end Placed

/-- The document of a route map has the normal paths of the routes in the order in which they occur
first, each with one slash before each of its segments. Its operations are those of the paths and
methods of the routes, each once, and every operation stands for the routes with its path and
method. -/
theorem extract_represents :
    let spec := routeMap.extract prose
    let pairs := spec.operations.map fun placed => (placed.path, placed.method)
    (∀ path, path ∈ OrderedMap.keys spec.paths ↔ path ∈ routeMap.paths) ∧
      (OrderedMap.keys spec.paths).Pairwise
        (fun first second => routeMap.paths.idxOf first < routeMap.paths.idxOf second) ∧
      (∀ path ∈ OrderedMap.keys spec.paths, ∃ segments, IsPath segments path) ∧
      pairs.Nodup ∧
      (∀ path method, (path, method) ∈ pairs ↔
        ∃ route ∈ routeMap.routes, normalPath route.path = path ∧ route.method = method) ∧
      ∀ placed ∈ spec.operations,
        Represents placed.path (routeMap.group placed.path placed.method) placed.operation := by
  intro spec pairs
  have keys : OrderedMap.keys spec.paths = routeMap.paths.eraseDups := keys_extract routeMap prose
  refine ⟨fun path => ?_, ?_, fun path member => ?_, nodup_map_operations routeMap prose,
    fun _ _ => mem_map_operations routeMap prose, fun _ => represents_of_mem routeMap prose⟩
  · rw [keys, List.mem_eraseDups]
  · rw [keys]
    exact eraseDups_pairwise routeMap.paths
  · rw [keys, List.mem_eraseDups] at member
    obtain ⟨route, -, rfl⟩ := List.mem_map.mp member
    exact ⟨_, Route.isPath_normalPath route.path⟩

end ServiceForge.RouteMap
