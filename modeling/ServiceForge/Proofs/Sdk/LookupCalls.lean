/-
This file compares the setters that a lookup calls with the members of the requests that
it builds. Both come from parameters of paths: those of the operation that shows the
resource name the calls, and each request has members for the parameters of its own
operation. The request that shows has a member for each call. The request that lists has
one exactly if a parameter or a part of its body is spelled like the call.
-/

import ServiceForge.Proofs.Generation.Records
import ServiceForge.Proofs.Sdk.MemberNames

namespace ServiceForge.Sdk

open ServiceForge.Generation
open ServiceForge.Lowering (Binding fieldNames isResourceId)
open ServiceForge.OpenApi (Parameter PlacedOperation)
open ServiceForge.Source (EndsWithLines endsWithLines_ofLines)
open ServiceForge.Text

/-! ### Calls -/

namespace Context

/-- The setters that a lookup calls on the request that lists. -/
def listCalls (context : Context) : List String :=
  context.findKey.elim [] fun key => (context.parents key).map Binding.name

/-- The setters that a lookup calls on the request that shows. -/
def showCalls (context : Context) : List String :=
  context.findKey.elim [] fun key => key :: (context.parents key).map Binding.name

/-- The function that builds the request that shows. -/
def getFunction (context : Context) : List String :=
  ["    fn get_ep(&self) -> Result<show::Request<'a>, FindError> \x7b",
    "        let mut ep = show::Request::builder();"] ++
    context.showCalls.map forwardMember ++ buildEndpoint

/-- The function that builds the request that lists. -/
def listFunction (context : Context) : List String :=
  ["    fn list_ep(&self) -> Result<list::Request<'a>, FindError> \x7b",
    "        let mut ep = list::Request::builder();"] ++
    context.listCalls.map forwardMember ++ buildEndpoint

/-- The source of a lookup ends with the two functions. -/
theorem endsWithLines_functions {context : Context} {key : String}
    (lookup : context.findKey = some key) :
    EndsWithLines context.file.contents
      (context.getFunction ++ [""] ++ context.listFunction ++ ["\x7d"]) := by
  have source : findLines context key <:+ moduleLines context := by
    unfold moduleLines
    rw [lookup]
    exact (List.suffix_append _ _).trans (List.suffix_append _ _)
  rw [contents_file]
  refine endsWithLines_ofLines (List.IsSuffix.trans ?_ source)
  unfold getFunction listFunction listCalls showCalls
  rw [lookup]
  simp only [Option.elim_some, List.map_cons, List.map_map]
  unfold findLines
  simp only [List.append_assoc]
  -- The functions begin inside the block that begins the implementation.
  iterate 4 refine List.suffix_append_of_suffix ?_
  exact ⟨["impl<'a> Findable for Request<'a> \x7b", "    type G = show::Request<'a>;",
    "    type L = list::Request<'a>;", ""], rfl⟩

end Context

/-! ### Contexts of an operation -/

theorem directory_of_contexts {request : OperationRequest} {placed : PlacedOperation}
    {given : List Context} (found : request.placed = .ok placed)
    (made : contexts request = .ok given) {context : Context} (member : context ∈ given) :
    context.directory = request.directory placed := by
  obtain ⟨_, again, each⟩ := recordOf_of_contexts made
  cases found.symm.trans again
  exact (each context member).directory

/-- The contexts of an operation that is of the kind of a lookup. -/
theorem madeLookup_of_contexts {request : OperationRequest} {given : List Context}
    (made : contexts request = .ok given)
    (lookup : ∀ placed, request.effectiveKind placed = .find) :
    ∃ placed, request.placed = .ok placed ∧
      ∀ context ∈ given, MadeLookup request placed (request.moduleName .find) context := by
  obtain ⟨placed, found, -⟩ := bind_eq_ok.mp made
  refine ⟨placed, found, fun context member => ?_⟩
  rcases contexts_cases found made member with ⟨-, gathered⟩ | ⟨plain, -⟩
  · exact madeLookup_of_ofFind gathered
  · exact absurd (lookup placed) plain

/-! ### Members that are called -/

section Members

variable {request : OperationRequest} {placed : PlacedOperation} {context : Context}

/-- The words of a name are those of a member exactly if they are those of a parameter or of a part
of the body. -/
theorem MembersNamed.fieldName_mem_iff {wireNames : List String}
    (named : MembersNamed request placed context)
    (body : context.body.members = fieldNames [] wireNames) {wireName : String} :
    Naming.fieldName wireName ∈ context.memberNames ↔
      (∃ parameter ∈ memberParameters request placed,
        bindingWords request placed parameter = spelling wireName) ∨
      spelling wireName ∈ context.body.words := by
  have bound : Naming.fieldName wireName ∈
      (memberParameters request placed).map (bindingName request placed) ↔
        ∃ parameter ∈ memberParameters request placed,
          bindingWords request placed parameter = spelling wireName := by
    rw [List.mem_map]
    refine exists_congr fun parameter => and_congr_right fun _ => ?_
    rw [bindingName_eq, Naming.fieldName_eq_iff]
    rfl
  rw [List.Perm.mem_iff named, List.mem_append, List.mem_append, List.mem_singleton, bound,
    fieldName_mem_names body, or_iff_left (Naming.fieldName_ne_headers wireName)]

/-- The names that parameters are bound by depend on the resource alone. -/
theorem bindingName_of_resource {other : OperationRequest}
    (resource : other.resource = request.resource) (parameter : Parameter) :
    bindingName other placed parameter = bindingName request placed parameter := by
  unfold bindingName scope OperationRequest.singular
  rw [resource]

/-- Whether each parameter of a path, the one that ends it aside, is spelled like a parameter of
another operation or like a part of the body there. -/
def ParentsSpelled (request : OperationRequest) (placed : PlacedOperation)
    (other : OperationRequest) (listed : PlacedOperation) (body : Body) : Prop :=
  ∀ key ∈ keyParameter? placed, ∀ parent ∈ located placed .path,
    bindingWords request placed parent ≠ bindingWords request placed key →
      (∃ parameter ∈ memberParameters other listed,
        bindingWords other listed parameter = bindingWords request placed parent) ∨
      bindingWords request placed parent ∈ body.words

instance (request : OperationRequest) (placed : PlacedOperation) (other : OperationRequest)
    (listed : PlacedOperation) (body : Body) :
    Decidable (ParentsSpelled request placed other listed body) :=
  inferInstanceAs (Decidable (∀ key ∈ keyParameter? placed, ∀ parent ∈ located placed .path, _))

variable {moduleName : String} (made : MadeLookup request placed moduleName context)

include made

/-- A lookup calls setters that are named after parameters of the path. -/
theorem MadeLookup.mem_listCalls {name : String} :
    name ∈ context.listCalls ↔ ∃ key, keyParameter? placed = some key ∧
      ∃ parameter ∈ located placed .path,
        bindingWords request placed parameter ≠ bindingWords request placed key ∧
          bindingName request placed parameter = name := by
  obtain ⟨bindings, state, lowered, sorted⟩ := made.lowered
  have path := map_name_of_perm (names_pathBindings_perm lowered sorted)
  unfold Context.listCalls
  rw [made.findKey_eq]
  cases keyParameter? placed with
  | none => simp
  | some key =>
    have parents : name ∈ (context.parents (bindingName request placed key)).map Binding.name ↔
        name ∈ context.pathBindings.map Binding.name ∧
          name ≠ bindingName request placed key := by
      simp only [Context.parents, List.mem_map, List.mem_filter, decide_eq_true_eq]
      constructor
      · rintro ⟨binding, ⟨held, apart⟩, rfl⟩
        exact ⟨⟨binding, held, rfl⟩, apart⟩
      · rintro ⟨⟨binding, held, rfl⟩, apart⟩
        exact ⟨binding, ⟨held, apart⟩, rfl⟩
    simp only [Option.map_some, Option.elim_some, Option.some.injEq, exists_eq_left']
    rw [parents, path.mem_iff, List.mem_map]
    constructor
    · rintro ⟨⟨parameter, held, rfl⟩, apart⟩
      exact ⟨parameter, held, fun same => apart (bindingName_eq_iff.mpr same), rfl⟩
    · rintro ⟨parameter, held, apart, rfl⟩
      exact ⟨⟨parameter, held, rfl⟩, fun same => apart (bindingName_eq_iff.mp same)⟩

theorem MadeLookup.exists_of_mem_showCalls {name : String} (called : name ∈ context.showCalls) :
    ∃ parameter ∈ located placed .path, bindingName request placed parameter = name := by
  have whole : name ∈ (context.findKey).toList ∨ name ∈ context.listCalls := by
    unfold Context.showCalls at called
    unfold Context.listCalls
    cases key : context.findKey with
    | none =>
      rw [key] at called
      cases called
    | some key =>
      rw [key] at called
      simpa using called
  rcases whole with isKey | isParent
  · rw [made.findKey_eq] at isKey
    obtain ⟨key, found, rfl⟩ := Option.map_eq_some_iff.mp (Option.mem_toList.mp isKey)
    exact ⟨key, List.mem_of_find?_eq_some found, rfl⟩
  · obtain ⟨-, -, parameter, held, -, same⟩ := made.mem_listCalls.mp isParent
    exact ⟨parameter, held, same⟩

/-- The request that shows the resource has a member for every call. -/
theorem MadeLookup.showCalls_mem {other : OperationRequest} {library : Context}
    (resource : other.resource = request.resource) (plain : other.effectiveKind placed ≠ .find)
    (named : MembersNamed other placed library) :
    ∀ name ∈ context.showCalls, name ∈ library.memberNames := by
  intro name called
  obtain ⟨parameter, held, rfl⟩ := made.exists_of_mem_showCalls called
  refine (List.Perm.mem_iff named).mpr (List.mem_append_left _ (List.mem_append_left _ ?_))
  refine List.mem_map.mpr ⟨parameter, ?_, bindingName_of_resource resource parameter⟩
  unfold memberParameters
  rw [if_neg plain]
  exact List.mem_append_left _ held

/-- The request that lists the resource has a member for every call exactly if each parameter of the
path besides the key is spelled like a parameter of its own or like a part of its body. -/
theorem MadeLookup.listCalls_mem_iff {other : OperationRequest} {listed : PlacedOperation}
    {library : Context} {wireNames : List String} (named : MembersNamed other listed library)
    (body : library.body.members = fieldNames [] wireNames) :
    (∀ name ∈ context.listCalls, name ∈ library.memberNames) ↔
      ParentsSpelled request placed other listed library.body := by
  have declared : ∀ parent, bindingName request placed parent ∈ library.memberNames ↔
      (∃ parameter ∈ memberParameters other listed,
        bindingWords other listed parameter = bindingWords request placed parent) ∨
      bindingWords request placed parent ∈ library.body.words := fun parent => by
    rw [bindingName_eq]
    exact named.fieldName_mem_iff body
  constructor
  · intro each key found parent held apart
    exact (declared parent).mp
      (each _ (made.mem_listCalls.mpr ⟨key, found, parent, held, apart, rfl⟩))
  · intro each name called
    obtain ⟨key, found, parent, held, apart, rfl⟩ := made.mem_listCalls.mp called
    exact (declared parent).mpr (each key found parent held apart)

end Members

end ServiceForge.Sdk
