/-
This file proves that a request binds each parameter of its operation once, in the
location where the parameter stands. The parameters of the query and of the headers keep
the order in which they are declared, those of the path before those of the operation. The
parameters of the path are sorted by the first places of their holes; the sort is stable,
and a parameter without a hole comes first.
-/

import Mathlib.Data.List.Forall2
import ServiceForge.Proofs.Sdk.MemberNames
import ServiceForge.Proofs.Source.Template

namespace ServiceForge.Sdk

open ServiceForge.Generation
open ServiceForge.Lowering (Binding Lower State lowerParameter lowerParameter_run run_bind_eq_ok)
open ServiceForge.OpenApi (Location Parameter PathItem PlacedOperation)
open ServiceForge.Source
open ServiceForge.Text

/-! ### First places -/

/-- The first place at which a part stands in a text. -/
structure FirstAt (part text : List Char) (place : Nat) : Prop where
  here : part <+: text.drop place
  before : ∀ earlier < place, ¬ part <+: text.drop earlier

section FirstAt

variable {part text : List Char} {place : Nat}

theorem firstAt_zero_iff : FirstAt part text 0 ↔ part <+: text :=
  ⟨fun first => first.here, fun here => ⟨here, fun _ less => absurd less (Nat.not_lt_zero _)⟩⟩

/-- A part that does not stand at the beginning stands first where it does in the rest. -/
theorem firstAt_cons_succ_iff {character : Char} (elsewhere : ¬ part <+: character :: text) :
    FirstAt part (character :: text) (place + 1) ↔ FirstAt part text place := by
  constructor
  · intro first
    exact ⟨first.here, fun earlier less => first.before (earlier + 1) (Nat.succ_lt_succ less)⟩
  · intro first
    refine ⟨first.here, fun earlier less => ?_⟩
    cases earlier with
    | zero => exact elsewhere
    | succ earlier => exact first.before earlier (Nat.lt_of_succ_lt_succ less)

theorem findFrom_eq_some_iff : findFrom part text = some place ↔ FirstAt part text place := by
  induction text generalizing place with
  | nil =>
    unfold findFrom
    cases part with
    | nil =>
      cases place with
      | zero => exact iff_of_true rfl (firstAt_zero_iff.mpr List.nil_prefix)
      | succ place =>
        exact iff_of_false (by simp) fun first => first.before 0 (Nat.succ_pos _) List.nil_prefix
    | cons character rest => exact iff_of_false (by simp) fun first => by simpa using first.here
  | cons character rest inductionHypothesis =>
    unfold findFrom
    by_cases here : part <+: character :: rest
    · rw [if_pos (List.isPrefixOf_iff_prefix.mpr here)]
      cases place with
      | zero => exact iff_of_true rfl (firstAt_zero_iff.mpr here)
      | succ place =>
        exact iff_of_false (by simp) fun first => first.before 0 (Nat.succ_pos _) here
    · rw [if_neg (mt List.isPrefixOf_iff_prefix.mp here)]
      cases place with
      | zero => exact iff_of_false (by simp) (mt firstAt_zero_iff.mp here)
      | succ place => simp [firstAt_cons_succ_iff here, inductionHypothesis]

end FirstAt

/-- Whether the hole of a binding does not stand after that of another one; a binding without a
hole stands before all others. -/
def NotAfter (path : String) (left right : Binding) : Prop :=
  ∀ place, FirstAt (hole left.wireName).toList path.toList place →
    ∃ later, place ≤ later ∧ FirstAt (hole right.wireName).toList path.toList later

theorem place_le_iff {path : String} {left right : Binding} :
    place path left ≤ place path right ↔ NotAfter path left right := by
  simp only [NotAfter, ← findFrom_eq_some_iff]
  show ((findFrom _ _).map (· + 1)).getD 0 ≤ ((findFrom _ _).map (· + 1)).getD 0 ↔ _
  cases findFrom (hole left.wireName).toList path.toList <;>
    cases findFrom (hole right.wireName).toList path.toList <;> simp

/-! ### Sorted bindings -/

section Sorted

variable {path : String} {bindings : List Binding}

theorem inPathOrder_perm : (inPathOrder path bindings).Perm bindings := List.mergeSort_perm _ _

theorem pairwise_inPathOrder : (inPathOrder path bindings).Pairwise (NotAfter path) := by
  refine (List.pairwise_mergeSort (fun _ _ _ first second => ?_) (fun _ _ => ?_) _).imp
    fun ordered => place_le_iff.mp (of_decide_eq_true ordered)
  · exact decide_eq_true (Nat.le_trans (of_decide_eq_true first) (of_decide_eq_true second))
  · simpa using Nat.le_total _ _

/-- Two bindings that are in order are left in their order. -/
theorem pair_sublist_inPathOrder {left right : Binding} (declared : [left, right].Sublist bindings)
    (ordered : NotAfter path left right) : [left, right].Sublist (inPathOrder path bindings) := by
  refine List.pair_sublist_mergeSort (fun _ _ _ first second => ?_) (fun _ _ => ?_)
    (decide_eq_true (place_le_iff.mpr ordered)) declared
  · exact decide_eq_true (Nat.le_trans (of_decide_eq_true first) (of_decide_eq_true second))
  · simpa using Nat.le_total _ _

end Sorted

/-! ### Bound parameters -/

/-- The parameters that hold for an operation: those of its path that it does not declare anew, and
then its own. -/
def effectiveParameters (placed : PlacedOperation) : List Parameter :=
  (placed.item.parameters.filter fun shared =>
    ∀ own ∈ placed.operation.parameters, own.name = shared.name → own.location ≠ shared.location) ++
      placed.operation.parameters

theorem parameters_eq (placed : PlacedOperation) :
    placed.parameters = effectiveParameters placed := by
  unfold PlacedOperation.parameters effectiveParameters
  refine congrArg (· ++ _) (List.filter_congr fun shared _ => ?_)
  rw [Bool.eq_iff_iff]
  simp

/-- The binding that a parameter is given. -/
structure IsBoundBy (parameter : Parameter) (binding : Binding) : Prop where
  wireName : binding.wireName = parameter.name
  location : binding.location = parameter.location
  required : binding.required = true ↔ parameter.required = true ∨ parameter.location = .path
  optional : binding.required = false → binding.type.isOptional = true

theorem wireNames_of_isBoundBy {parameters : List Parameter} {bindings : List Binding}
    (bound : List.Forall₂ IsBoundBy parameters bindings) :
    bindings.map Binding.wireName = parameters.map Parameter.name := by
  induction bound with
  | nil => rfl
  | cons first _ inductionHypothesis =>
    rw [List.map_cons, List.map_cons, first.wireName, inductionHypothesis]

theorem isBoundBy_of_lowerParameter {context : Lowering.Context} {scope : Lowering.Scope}
    {parameter : Parameter} {binding : Binding} {state after : State}
    (ran : lowerParameter context parameter scope state = (.ok binding, after)) :
    IsBoundBy parameter binding := by
  rw [lowerParameter_run] at ran
  split at ran
  · cases ran
  · cases ran
    refine ⟨rfl, rfl, by simp [Lowering.bindingOf], fun free => ?_⟩
    have wrapped : (!(parameter.required || decide (parameter.location = .path))) = true := by
      simpa [Lowering.bindingOf] using free
    show (Lowering.optionalIf _ _).isOptional = true
    rw [Lowering.optionalIf, if_pos wrapped]
    exact Lowering.ValueType.isOptional_toOptional _

/-- Computations one after another give one result for each item. -/
theorem forall₂_of_run_mapM {α β : Type} {items : List α} {convert : α → Lower β}
    {gives : α → β → Prop} {state after : State} {results : List β}
    (each : ∀ item {state after result}, convert item state = (.ok result, after) →
      gives item result)
    (ran : items.mapM convert state = (.ok results, after)) : List.Forall₂ gives items results := by
  induction items generalizing state results with
  | nil =>
    cases ran
    exact .nil
  | cons item rest inductionHypothesis =>
    rw [List.mapM_cons] at ran
    obtain ⟨result, middle, first, ran⟩ := run_bind_eq_ok.mp ran
    obtain ⟨others, last, later, returned⟩ := run_bind_eq_ok.mp ran
    cases returned
    exact .cons (each item first) (inductionHypothesis later)

section Bound

variable {request : OperationRequest} {placed : PlacedOperation} {bindings : List Binding}
  {state after : State}

theorem isBoundBy_of_lowerAllBindings
    (ran : lowerAllBindings request placed state = (.ok bindings, after)) :
    List.Forall₂ IsBoundBy (effectiveParameters placed) bindings := by
  have all : placed.parameters.filter (Location.all.contains ·.location) =
      effectiveParameters placed := by
    rw [parameters_eq, List.filter_eq_self]
    intro parameter _
    cases parameter.location <;> decide
  rw [← all]
  unfold lowerAllBindings lowerBindings at ran
  exact forall₂_of_run_mapM (fun _ => isBoundBy_of_lowerParameter) ran

/-- The bindings in a location are those of the parameters there. -/
theorem isBoundBy_of_location (location : Location)
    (bound : List.Forall₂ IsBoundBy (effectiveParameters placed) bindings) :
    List.Forall₂ IsBoundBy ((effectiveParameters placed).filter (·.location = location))
      (bindings.filter (·.location = location)) := by
  refine List.rel_filter (fun parameter binding given => ?_) bound
  simp only [decide_eq_true_eq, given.location]

end Bound

/-- The bindings of a variant are those of the operation, in their locations. -/
theorem bindings_of_ofVariant {request : OperationRequest} {placed : PlacedOperation}
    {kind : Kind} {media : RequestMedia} {variant : Variant} {context : Context}
    (given : ofVariant request placed kind media variant = .ok context) :
    ∃ bindings state, lowerAllBindings request placed {} = (.ok bindings, state) ∧
      context.pathBindings = inPathOrder placed.path (bindings.filter (·.location = .path)) ∧
      context.queryBindings = bindings.filter (·.location = .query) ∧
      context.headerBindings = bindings.filter (·.location = .header) := by
  obtain ⟨bindings, bound, result, after, _, _, lowered, sent, rfl⟩ := ofVariant_eq_ok given
  obtain ⟨mediaType, requestKey, same⟩ := withBody_sets sent
  exact ⟨bindings, bound, lowered, congrArg Context.pathBindings same,
    congrArg Context.queryBindings same, congrArg Context.headerBindings same⟩

/-- A request binds each parameter of its operation once, in its location, and binds nothing else;
parameters of cookies are left out. The parameters of the query and of the headers are bound in the
order of their declarations. Those of the path are sorted by the first places of their holes, those
without a hole coming first, and stay in the order of their declarations where the places allow. -/
theorem parameters_bound_once {request : OperationRequest} {placed : PlacedOperation}
    {given : List Context} {context : Context} (found : request.placed = .ok placed)
    (made : contexts request = .ok given) (member : context ∈ given)
    (kind : request.effectiveKind placed ≠ .find) :
    List.Forall₂ IsBoundBy ((effectiveParameters placed).filter (·.location = .query))
        context.queryBindings ∧
      List.Forall₂ IsBoundBy ((effectiveParameters placed).filter (·.location = .header))
        context.headerBindings ∧
      ∃ declared,
        List.Forall₂ IsBoundBy ((effectiveParameters placed).filter (·.location = .path))
          declared ∧
        context.pathBindings.Perm declared ∧
        context.pathBindings.Pairwise (NotAfter placed.path) ∧
        ∀ left right, [left, right].Sublist declared → NotAfter placed.path left right →
          [left, right].Sublist context.pathBindings := by
  obtain ⟨lookup, -⟩ | ⟨-, _, _, _, variantMade⟩ := contexts_cases found made member
  · exact absurd lookup kind
  obtain ⟨bindings, state, lowered, path, query, header⟩ := bindings_of_ofVariant variantMade
  have bound := isBoundBy_of_lowerAllBindings lowered
  rw [path, query, header]
  exact ⟨isBoundBy_of_location .query bound, isBoundBy_of_location .header bound, _,
    isBoundBy_of_location .path bound, inPathOrder_perm, pairwise_inPathOrder,
    fun _ _ declared ordered => pair_sublist_inPathOrder declared ordered⟩

/-- A request for the records of a zone. Its path declares the zone, which the operation declares
anew, and how many records there may be; the operation also takes a parameter that has no hole in
the path, and one from a cookie. -/
def sortedRecords : OperationRequest where
  spec := {
    version := "3.1.0"
    paths := [("/v2/\x7bowner\x7d/zones/\x7bzone\x7d/records",
      PathItem.setOperation
        { parameters := [pathParameter "zone", { name := "limit", location := .query }] } .get {
          id := some "records"
          parameters := [
            { pathParameter "zone" with description := some "Zone of the records" },
            { name := "limit", location := .header, required := true },
            { name := "region", location := .path },
            { name := "session", location := .cookie },
            pathParameter "owner",
            { name := "marker", location := .query, required := true }] })] }
  resource := ⟨"dns", "zones/records"⟩
  operation := "records"

/-- The operation that is asked for is found, with the names of its parameters in each location. -/
theorem sortedRecords_placed : ∃ placed, sortedRecords.placed = .ok placed ∧
    placed.path = "/v2/\x7bowner\x7d/zones/\x7bzone\x7d/records" ∧
    sortedRecords.effectiveKind placed ≠ .find ∧
    ((effectiveParameters placed).filter (·.location = .path)).map Parameter.name =
      ["zone", "region", "owner"] ∧
    ((effectiveParameters placed).filter (·.location = .query)).map Parameter.name =
      ["limit", "marker"] ∧
    ((effectiveParameters placed).filter (·.location = .header)).map Parameter.name = ["limit"] :=
  ⟨_, rfl, rfl, by decide +kernel, by decide +kernel, by decide +kernel, by decide +kernel⟩

theorem parameters_bound_once_records :
    ∃ given, contexts sortedRecords = .ok given ∧ given.length = 1 ∧ ∀ context ∈ given,
      context.pathBindings.map Binding.wireName = ["region", "owner", "zone"] ∧
      context.queryBindings.map Binding.wireName = ["limit", "marker"] ∧
      context.headerBindings.map Binding.wireName = ["limit"] := by
  have counted : (contexts sortedRecords).toOption.map List.length = some 1 := by decide +kernel
  obtain ⟨given, made, single⟩ := Option.map_eq_some_iff.mp counted
  obtain ⟨placed, found, path, kind, inPath, inQuery, inHeader⟩ := sortedRecords_placed
  refine ⟨given, toOption_eq_some.mp made, single, fun context member => ?_⟩
  obtain ⟨query, header, declared, bound, permuted, sorted, -⟩ :=
    parameters_bound_once found (toOption_eq_some.mp made) member kind
  refine ⟨?_, by rw [wireNames_of_isBoundBy query, inQuery],
    by rw [wireNames_of_isBoundBy header, inHeader]⟩
  have names := permuted.map Binding.wireName
  rw [wireNames_of_isBoundBy bound, inPath] at names
  have places : (context.pathBindings.map Binding.wireName).Pairwise fun left right =>
      holePlace placed.path left ≤ holePlace placed.path right :=
    List.pairwise_map.mpr (sorted.imp fun ordered => place_le_iff.mpr ordered)
  -- The three holes have places of their own, so only one order is sorted.
  have apart : ∀ left ∈ ["zone", "region", "owner"], ∀ right ∈ ["zone", "region", "owner"],
      holePlace placed.path left ≤ holePlace placed.path right →
        holePlace placed.path right ≤ holePlace placed.path left → left = right := by
    rw [path]
    decide +kernel
  have strict : ["region", "owner", "zone"].Pairwise fun left right =>
      holePlace placed.path left ≤ holePlace placed.path right := by
    rw [path]
    decide +kernel
  have order : ["zone", "region", "owner"].Perm ["region", "owner", "zone"] := by decide
  exact (names.trans order).eq_of_pairwise (fun left right here there => apart left
    (names.mem_iff.mp here) right (order.mem_iff.mpr there)) places strict

end ServiceForge.Sdk
