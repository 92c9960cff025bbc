/-
This file proves when the ids of operations tell them apart. An id has the names of the segments
of a path and a method, so two operations have one id exactly if their paths differ only in a
version or in braces.
-/

import ServiceForge.Proofs.Route.Extraction

namespace ServiceForge.Route

open ServiceForge.OpenApi (Method)
open ServiceForge.Text

/-! ### Names of paths -/

/-- A segment without braces. -/
def bare (segment : String) : String := trimEnd (· = '\x7d') (trimStart (· = '\x7b') segment)

/-- The names of the segments of a path as they stand in ids. -/
def names (path : String) : List String :=
  match (Resource.unversioned (segments '/' path)).map bare with
  | [] => ["root"]
  | named => named

theorem names_ne_nil (path : String) : names path ≠ [] := by
  unfold names
  split
  · exact List.cons_ne_nil _ _
  · next some => exact some

theorem operationId_eq (path : String) (method : Method) :
    operationId path method = join "/" (names path) ++ ":" ++ method.name := by
  simp only [operationId, names]
  split
  · next none =>
    rw [List.isEmpty_iff] at none
    rw [show ((Resource.unversioned (segments '/' path)).map bare) = [] from none]
    rfl
  · next some =>
    split
    · next none => exact absurd (List.isEmpty_iff.mpr none) some
    · rfl

theorem notMem_bare {character : Char} {segment : String} (plain : character ∉ segment.toList) :
    character ∉ (bare segment).toList := by
  simp only [bare, trimEnd, trimStart, String.toList_ofList, dropEndWhile, List.mem_reverse]
  intro member
  have inStart := List.mem_reverse.mp ((List.dropWhile_suffix _).subset member)
  exact plain ((List.dropWhile_suffix _).subset inStart)

theorem notMem_names {path name : String} (member : name ∈ names path) : '/' ∉ name.toList := by
  have plain : ∀ segment ∈ Resource.unversioned (segments '/' path), '/' ∉ segment.toList := by
    intro segment member
    refine ((isPath_normalPath path).2 segment ?_).2
    cases held : segments '/' path with
    | nil =>
      rw [held] at member
      cases member
    | cons first rest =>
      rw [held, Resource.unversioned] at member
      split at member
      · exact List.mem_cons_of_mem _ member
      · exact member
  unfold names at member
  split at member
  · rw [List.mem_singleton.mp member]
    decide
  · obtain ⟨segment, inside, rfl⟩ := List.mem_map.mp member
    exact notMem_bare (plain segment inside)

/-- What stands before and after the last colon is found again. -/
theorem append_colon_inj {before other finish otherFinish : String}
    (plain : ':' ∉ finish.toList) (otherPlain : ':' ∉ otherFinish.toList) :
    before ++ ":" ++ finish = other ++ ":" ++ otherFinish ↔
      before = other ∧ finish = otherFinish := by
  have nothing : ∀ {between first second : List Char}, ':' ∉ first →
      ':' :: first = between ++ ':' :: second → between = [] ∧ first = second := by
    rintro (_ | ⟨_, between⟩) first second plain same
    · exact ⟨rfl, List.tail_eq_of_cons_eq same⟩
    · rw [List.tail_eq_of_cons_eq same] at plain
      exact absurd (List.mem_append_right between List.mem_cons_self) plain
  constructor
  · intro same
    have characters : before.toList ++ ':' :: finish.toList =
        other.toList ++ ':' :: otherFinish.toList := by simpa using congrArg String.toList same
    rcases List.append_eq_append_iff.mp characters with ⟨_, whole, rest⟩ | ⟨_, whole, rest⟩
    · obtain ⟨rfl, ends⟩ := nothing plain rest
      exact ⟨String.toList_inj.mp (by simpa using whole.symm), String.toList_inj.mp ends⟩
    · obtain ⟨rfl, ends⟩ := nothing otherPlain rest
      exact ⟨String.toList_inj.mp (by simpa using whole), String.toList_inj.mp ends.symm⟩
  · rintro ⟨rfl, rfl⟩
    rfl

theorem notMem_name (method : Method) : ':' ∉ method.name.toList := by cases method <;> decide

theorem name_inj {method other : Method} : method.name = other.name ↔ method = other := by
  cases method <;> cases other <;> decide

/-- Operations have one id if their paths have the same names and their methods are the same. -/
theorem operationId_inj {path otherPath : String} {method otherMethod : Method} :
    operationId path method = operationId otherPath otherMethod ↔
      names path = names otherPath ∧ method = otherMethod := by
  rw [operationId_eq, operationId_eq, append_colon_inj (notMem_name method) (notMem_name _),
    name_inj, FilePath.join_inj (names_ne_nil path) (names_ne_nil otherPath)
      (fun _ => notMem_names) (fun _ => notMem_names)]

end ServiceForge.Route

namespace ServiceForge.RouteMap

open ServiceForge.OpenApi (Method Operation PlacedOperation Spec)
open ServiceForge.Route (names normalPath operationId operationId_inj)

variable (routeMap : RouteMap) (prose : Option Prose)

/-- Whether routes with one method whose paths have the same names have the same path. -/
def Separates : Prop :=
  ∀ route ∈ routeMap.routes, ∀ other ∈ routeMap.routes, route.method = other.method →
    names (normalPath route.path) = names (normalPath other.path) →
      normalPath route.path = normalPath other.path

/-- Whether the prose for an id changes the operation with a path and method. -/
def Reaches (id path : String) (method : Method) : Prop :=
  ∃ first second : Prose,
    (∀ other ≠ id, first.operations.get? other = second.operations.get? other) ∧
      routeMap.operation? (some first) path method ≠ routeMap.operation? (some second) path method

section Ids

variable {routeMap prose}

theorem id_of_mem {placed : PlacedOperation}
    (member : placed ∈ (routeMap.extract prose).operations) :
    placed.operation.id = some (operationId placed.path placed.method) := by
  obtain ⟨-, made⟩ := operation?_eq_some.mp (operation?_of_mem routeMap prose member)
  rw [← made]
  rfl

/-- The prose for an id reaches the operations that have it. -/
theorem reaches_iff {id path : String} {method : Method} :
    routeMap.Reaches id path method ↔
      routeMap.group path method ≠ [] ∧ operationId path method = id := by
  constructor
  · rintro ⟨first, second, same, differ⟩
    by_contra apart
    refine differ (Option.ext fun operation => ?_)
    rw [operation?_eq_some, operation?_eq_some]
    refine and_congr_right fun some => ?_
    have other : operationId path method ≠ id := fun own => apart ⟨some, own⟩
    rw [Option.bind_some, Option.bind_some, same _ other]
  · rintro ⟨some, rfl⟩
    let described : Prose := ⟨[(operationId path method, { summary := "" })]⟩
    refine ⟨⟨[]⟩, described, fun other apart => ?_, fun same => ?_⟩
    · rw [OrderedMap.get?_cons, if_neg apart]
    · rw [operation?_eq_some.mpr ⟨some, rfl⟩, operation?_eq_some.mpr ⟨some, rfl⟩] at same
      have summaries := congrArg Operation.summary (Option.some.inj same)
      simp [Route.operation, described, OrderedMap.get?_cons] at summaries

/-- Routes are told apart exactly if ids tell the paths and methods of operations apart. -/
theorem separates_iff :
    routeMap.Separates ↔ ∀ path method otherPath otherMethod,
      routeMap.group path method ≠ [] → routeMap.group otherPath otherMethod ≠ [] →
        operationId path method = operationId otherPath otherMethod →
          path = otherPath ∧ method = otherMethod := by
  simp only [group_ne_nil, operationId_inj]
  constructor
  · rintro separates _ _ _ _ ⟨route, member, rfl, rfl⟩ ⟨other, otherMember, rfl, rfl⟩
      ⟨sameNames, methods⟩
    exact ⟨separates route member other otherMember methods sameNames, methods⟩
  · intro distinct route member other otherMember methods sameNames
    exact (distinct _ _ _ _ ⟨route, member, rfl, rfl⟩ ⟨other, otherMember, rfl, rfl⟩
      ⟨sameNames, methods⟩).1

theorem group_ne_nil_of_mem {placed : PlacedOperation}
    (member : placed ∈ (routeMap.extract prose).operations) :
    routeMap.group placed.path placed.method ≠ [] :=
  (operation?_eq_some.mp (operation?_of_mem routeMap prose member)).1

theorem exists_placed (prose : Option Prose) {path : String} {method : Method}
    (some : routeMap.group path method ≠ []) :
    ∃ placed ∈ (routeMap.extract prose).operations,
      placed.path = path ∧ placed.method = method := by
  have member := (mem_map_operations routeMap prose).mpr (group_ne_nil.mp some)
  obtain ⟨placed, held, same⟩ := List.mem_map.mp member
  cases same
  exact ⟨placed, held, rfl, rfl⟩

/-- A path and method has one operation. -/
theorem placed_inj {placed other : PlacedOperation}
    (member : placed ∈ (routeMap.extract prose).operations)
    (otherMember : other ∈ (routeMap.extract prose).operations)
    (path : placed.path = other.path) (method : placed.method = other.method) : placed = other :=
  List.inj_on_of_nodup_map (nodup_map_operations routeMap prose) member otherMember
    (Prod.ext path method)

theorem nodup_ids_iff :
    ((routeMap.extract prose).operations.map fun placed => placed.operation.id).Nodup ↔
      routeMap.Separates := by
  have operations := (nodup_map_operations routeMap prose).of_map
  rw [List.nodup_map_iff_inj_on operations, separates_iff]
  constructor
  · intro distinct path method otherPath otherMethod some otherSome same
    obtain ⟨placed, member, rfl, rfl⟩ := exists_placed prose some
    obtain ⟨other, otherMember, rfl, rfl⟩ := exists_placed prose otherSome
    have ids : placed.operation.id = other.operation.id := by
      rw [id_of_mem member, id_of_mem otherMember, same]
    cases distinct _ member _ otherMember ids
    exact ⟨rfl, rfl⟩
  · intro separates placed member other otherMember same
    rw [id_of_mem member, id_of_mem otherMember, Option.some_inj] at same
    obtain ⟨path, method⟩ := separates _ _ _ _ (group_ne_nil_of_mem member)
      (group_ne_nil_of_mem otherMember) same
    exact placed_inj member otherMember path method

theorem findOperation?_iff :
    (∀ placed ∈ (routeMap.extract prose).operations, ∀ id, placed.operation.id = some id →
      (routeMap.extract prose).findOperation? id = some placed) ↔ routeMap.Separates := by
  unfold Spec.findOperation?
  rw [separates_iff]
  constructor
  · intro found path method otherPath otherMethod some otherSome same
    obtain ⟨placed, member, rfl, rfl⟩ := exists_placed prose some
    obtain ⟨other, otherMember, rfl, rfl⟩ := exists_placed prose otherSome
    have first := found placed member _ (id_of_mem member)
    rw [same, found other otherMember _ (id_of_mem otherMember)] at first
    cases first
    exact ⟨rfl, rfl⟩
  · intro separates placed member id isId
    cases found : (routeMap.extract prose).operations.find? fun placed =>
        placed.operation.id == some id with
    | none => exact absurd (by simp [isId]) (List.find?_eq_none.mp found placed member)
    | some other =>
      have otherMember := List.mem_of_find?_eq_some found
      have same : other.operation.id = some id := by simpa using List.find?_some found
      rw [← isId, id_of_mem otherMember, id_of_mem member, Option.some_inj] at same
      obtain ⟨path, method⟩ := separates _ _ _ _ (group_ne_nil_of_mem otherMember)
        (group_ne_nil_of_mem member) same
      rw [placed_inj otherMember member path method]

end Ids

/-- The ids of the operations are distinct exactly if routes with one method have paths whose names
differ. In the same cases every operation is found by its id, and the prose for an id reaches one
operation at most. -/
theorem ids_distinct_iff :
    let spec := routeMap.extract prose
    ((spec.operations.map fun placed => placed.operation.id).Nodup ↔ routeMap.Separates) ∧
      ((∀ placed ∈ spec.operations, ∀ id, placed.operation.id = some id →
        spec.findOperation? id = some placed) ↔ routeMap.Separates) ∧
      ((∀ id path method otherPath otherMethod, routeMap.Reaches id path method →
        routeMap.Reaches id otherPath otherMethod → path = otherPath ∧ method = otherMethod) ↔
          routeMap.Separates) := by
  refine ⟨nodup_ids_iff, findOperation?_iff, ?_⟩
  simp only [reaches_iff, separates_iff]
  constructor
  · intro single path method otherPath otherMethod some otherSome same
    exact single _ _ _ _ _ ⟨some, same⟩ ⟨otherSome, rfl⟩
  · rintro separates id path method otherPath otherMethod ⟨some, rfl⟩ ⟨otherSome, same⟩
    exact separates _ _ _ _ some otherSome same.symm

/-- The routes to the root of a service, with and without a version. -/
def rootRoutes : RouteMap where
  service := "compute"
  version := "2.1"
  routes := [{ path := "/", method := .get }, { path := "/v2.1", method := .get }]

theorem rootRoutes_share_id :
    let spec := rootRoutes.extract none
    spec.operations.map (fun placed => (placed.path, placed.operation.id)) =
        [("/", some "root:get"), ("/v2.1", some "root:get")] ∧
      ¬ (spec.operations.map fun placed => placed.operation.id).Nodup ∧
      (spec.findOperation? "root:get").map PlacedOperation.path = some "/" := by
  decide +kernel

end ServiceForge.RouteMap
