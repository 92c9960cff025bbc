/-
This file proves when the endpoint of a generated request is the path of its operation with
the values of the request in its holes. The expression for the endpoint is read from the
source and evaluated. The holes of its template are renamed to bindings one after the other,
in the order of the path, so a binding that is named like a later hole is renamed again.
-/

import ServiceForge.Proofs.Sdk.MemberNames
import ServiceForge.Proofs.Source.Format

namespace ServiceForge.Sdk

open ServiceForge.Generation
open ServiceForge.Lowering (Binding State isResourceId)
open ServiceForge.Naming (IsPlain)
open ServiceForge.OpenApi (Location Parameter PathItem PlacedOperation)
open ServiceForge.Source
open ServiceForge.Text

/-! ### Names of bindings -/

theorem isPlain_fieldName (wireName : String) : IsPlain (Naming.fieldName wireName) := by
  have words : IsPlain (snakeCase wireName) := Naming.isPlain_moduleName wireName
  rcases Naming.fieldName_cases wireName with ⟨-, same⟩ | ⟨-, same⟩ | same
  · rw [same]
    decide
  · rw [same]
    exact Naming.isPlain_underscore.append words
  · rw [same]
    exact words

theorem isPlain_bindingName (request : OperationRequest) (placed : PlacedOperation)
    (parameter : Parameter) : IsPlain (bindingName request placed parameter) := by
  rw [bindingName_eq]
  exact isPlain_fieldName _

theorem isBraceless_of_isPlain {name : String} (plain : IsPlain name) :
    (Part.hole name).IsBraceless := by
  intro character member
  refine Bool.eq_false_iff.mpr fun brace => ?_
  have symbol : isSymbol character = true ∧ character ≠ '_' := by
    rcases (by simpa [isBrace] using brace : character = '\x7b' ∨ character = '\x7d') with rfl | rfl
    all_goals decide
  exact symbol.2 (plain character member symbol.1)

/-! ### Expressions of endpoints -/

/-- The expression whose template has the given parts, renamed to the new names of the pairs, and
in which each new name shows the member with that name. -/
def filling (parts : List Part) (pairs : List (String × String)) : Expression :=
  .format (parts.map (Part.rename (renamed pairs))) (pairs.map fun pair => ⟨pair.1, pair.1⟩)

/-- The first with a key of its own is the only one. -/
theorem find?_of_nodup_map {α β : Type} [DecidableEq β] {members : List α} {key : α → β}
    (distinct : (members.map key).Nodup) {member : α} (held : member ∈ members) :
    members.find? (key · = key member) = some member := by
  induction members with
  | nil => cases held
  | cons first rest inductionHypothesis =>
    obtain ⟨absent, distinct⟩ := List.nodup_cons.mp distinct
    rcases List.mem_cons.mp held with rfl | held
    · exact List.find?_cons_of_pos (decide_eq_true rfl)
    · have other : key first ≠ key member := fun same =>
        absent (List.mem_map.mpr ⟨member, held, same.symm⟩)
      rw [List.find?_cons_of_neg (by simpa using other)]
      exact inductionHypothesis distinct held

section Filling

variable {parts : List Part} {pairs : List (String × String)} {shown : String → String}

/-- An expression that has a value gives its arguments names of their own, and shows them all. -/
theorem apart_of_filling {url : List Char} (given : (filling parts pairs).value? shown = some url) :
    (pairs.map Prod.fst).Nodup ∧ pairs.Pairwise fun earlier later => earlier.1 ≠ later.2 := by
  unfold filling Expression.value? at given
  simp only [List.map_map] at given
  split at given
  · next valid =>
    obtain ⟨distinct, used⟩ := valid
    refine ⟨distinct, pairwise_of_renamed distinct fun pair member => ?_⟩
    obtain ⟨part, -, same⟩ := List.mem_map.mp (used pair.1 (List.mem_map.mpr ⟨pair, member, rfl⟩))
    cases part with
    | literal character => cases same
    | hole name => exact ⟨name, Part.hole.inj same⟩
  · cases given

/-- If no new name is the old name of a later pair, each hole is filled with what the member of its
pair shows. -/
theorem value?_filling (distinct : (pairs.map Prod.fst).Nodup)
    (holes : (pairs.map Prod.snd).Nodup)
    (apart : pairs.Pairwise fun earlier later => earlier.1 ≠ later.2)
    (occurring : ∀ pair ∈ pairs, Part.hole pair.2 ∈ parts)
    (paired : ∀ name, Part.hole name ∈ parts → name ∈ pairs.map Prod.snd) :
    (filling parts pairs).value? shown =
      fill? (fun name => (pairs.find? (·.2 = name)).map fun pair => shown pair.1) parts := by
  have used : ∀ name ∈ pairs.map Prod.fst,
      Part.hole name ∈ parts.map (Part.rename (renamed pairs)) := by
    intro name member
    obtain ⟨pair, held, rfl⟩ := List.mem_map.mp member
    refine List.mem_map.mpr ⟨.hole pair.2, occurring pair held, ?_⟩
    exact congrArg Part.hole (renamed_of_mem holes apart held)
  unfold filling Expression.value?
  simp only [List.map_map]
  rw [if_pos ⟨distinct, used⟩, fill?_rename]
  refine fill?_congr fun name inside => ?_
  obtain ⟨pair, held, rfl⟩ := List.mem_map.mp (paired name inside)
  have argument : (pairs.map fun pair => (⟨pair.1, pair.1⟩ : Argument)).find?
      (·.name = pair.1) = some ⟨pair.1, pair.1⟩ := by
    rw [List.find?_map]
    exact congrArg (Option.map _) (find?_of_nodup_map distinct held)
  have own : pairs.find? (·.2 = pair.2) = some pair := find?_of_nodup_map holes held
  simp only [Function.comp_apply, renamed_of_mem holes apart held, argument, own, Option.map_some]

end Filling

/-- Where a list is sorted, what holds from each member to the later ones is said by the order. -/
theorem pairwise_iff_of_strict {α : Type} {members : List α} {place : α → Nat}
    {relation : α → α → Prop}
    (strict : members.Pairwise fun left right => place left < place right) :
    members.Pairwise relation ↔ ∀ earlier ∈ members, ∀ later ∈ members,
      place earlier < place later → relation earlier later := by
  constructor
  · intro given
    induction members with
    | nil => nofun
    | cons first rest inductionHypothesis =>
      obtain ⟨before, strict⟩ := List.pairwise_cons.mp strict
      obtain ⟨related, given⟩ := List.pairwise_cons.mp given
      intro earlier earlierHeld later laterHeld order
      rcases List.mem_cons.mp earlierHeld with rfl | earlierInRest
      · rcases List.mem_cons.mp laterHeld with rfl | laterInRest
        · exact absurd order (Nat.lt_irrefl _)
        · exact related later laterInRest
      · rcases List.mem_cons.mp laterHeld with rfl | laterInRest
        · exact absurd order (Nat.lt_asymm (before earlier earlierInRest))
        · exact inductionHypothesis strict given earlier earlierInRest later laterInRest order
  · exact fun given => strict.imp_of_mem fun earlierHeld laterHeld order =>
      given _ earlierHeld _ laterHeld order

/-! ### Sources of endpoints -/

theorem readArgument?_endpointArgument {binding : Binding} (plain : IsPlain binding.name) :
    readArgument? (endpointArgument binding).toList = some ⟨binding.name, binding.name⟩ ∧
      ',' ∉ (endpointArgument binding).toList := by
  have apart : ',' ∉ binding.name.toList := plain.notMem (by decide) (by decide)
  have written : ∃ after, (after = [] ∨ after = ".as_ref()".toList) ∧
      (endpointArgument binding).toList =
        binding.name.toList ++ (" = self.".toList ++ (binding.name.toList ++ after)) := by
    unfold endpointArgument
    simp only
    split
    · exact ⟨_, Or.inr rfl, by simp only [String.toList_append, List.append_assoc]⟩
    · exact ⟨_, Or.inl rfl, by
        simp only [String.toList_append, List.append_assoc, List.append_nil]⟩
  obtain ⟨after, ends, written⟩ := written
  rw [written]
  refine ⟨readArgument?_eq plain plain ends, ?_⟩
  have last : ',' ∉ after := by
    rcases ends with rfl | rfl <;> decide
  have between : ',' ∉ " = self.".toList := by decide
  simp only [List.mem_append, not_or]
  exact ⟨apart, between, apart, last⟩

/-- The template of an endpoint depends on the names of its bindings. -/
theorem endpointTemplate_eq (url : String) (bindings : List Binding) :
    endpointTemplate url bindings = (bindings.map names).foldl
      (fun text pair => replace (hole pair.2) (hole pair.1) text) url := by
  rw [List.foldl_map]
  rfl

theorem readExpression?_endpointExpression {context : Context} {parts : List Part}
    (isTemplate : IsTemplate context.url parts)
    (plain : ∀ binding ∈ context.pathBindings, IsPlain binding.name)
    (braceless : ∀ binding ∈ context.pathBindings, (Part.hole binding.wireName).IsBraceless) :
    readExpression? (endpointExpression context).toList =
      some (if context.pathBindings.isEmpty then .literal context.url.toList
        else filling parts (context.pathBindings.map names)) := by
  unfold endpointExpression
  simp only
  split
  · rw [String.toList_append]
    exact readExpression?_literal context.url
  · next filled =>
    have joined : ", ".toList ++ (join ", " (context.pathBindings.map endpointArgument)).toList =
        context.pathBindings.flatMap fun binding =>
          ", ".toList ++ (endpointArgument binding).toList := by
      have some : (context.pathBindings.map endpointArgument).map String.toList ≠ [] := by
        simpa using filled
      rw [join, String.toList_intercalate, append_intercalate _ some, List.map_map,
        List.flatMap_map]
      rfl
    have written : ("format!(" ++ escapedLiteral (endpointTemplate context.url context.pathBindings) ++
        ", " ++ join ", " (context.pathBindings.map endpointArgument) ++ ").into()").toList =
          "format!(".toList ++
            ((escapedLiteral (endpointTemplate context.url context.pathBindings)).toList ++
              ((context.pathBindings.flatMap fun binding =>
                ", ".toList ++ (endpointArgument binding).toList) ++ afterArguments)) := by
      rw [← joined]
      simp only [String.toList_append, List.append_assoc]
      rfl
    have named : ∀ pair ∈ context.pathBindings.map names,
        (Part.hole pair.1).IsBraceless ∧ (Part.hole pair.2).IsBraceless :=
      List.forall_mem_map.mpr fun binding member =>
        ⟨isBraceless_of_isPlain (plain binding member), braceless binding member⟩
    have renamedHoles := isTemplate.replaceAll named
    rw [written, endpointTemplate_eq, readExpression?_format
      (fun binding member => (readArgument?_endpointArgument (plain binding member)).1)
      (fun binding member => (readArgument?_endpointArgument (plain binding member)).2) renamedHoles]
    unfold filling
    rw [List.map_map]
    rfl

/-! ### Endpoints of an operation -/

/-- The bindings and the names of the parameters of a path, in the order of their holes. -/
def pathNames (request : OperationRequest) (placed : PlacedOperation) : List (String × String) :=
  ((located placed .path).map fun parameter =>
    (bindingName request placed parameter, parameter.name)).mergeSort
      fun left right => decide (holePlace placed.path left.2 ≤ holePlace placed.path right.2)

/-- What the endpoint of a context is made from. -/
structure MadeEndpoint (request : OperationRequest) (placed : PlacedOperation) (context : Context) :
    Prop where
  url : context.url = trimStart (· = '/') placed.path
  bound : context.pathBindings.map names = pathNames request placed

/-- What a request has for the hole with a name: what the member shows that the parameter with
the name is bound to. -/
def supplied? (request : OperationRequest) (placed : PlacedOperation) (shown : String → String)
    (name : String) : Option String :=
  ((located placed .path).find? (·.name = name)).map fun parameter =>
    shown (bindingName request placed parameter)

/-- The path of an operation without leading slashes, its holes filled. -/
def filledPath? (request : OperationRequest) (placed : PlacedOperation) (parts : List Part)
    (shown : String → String) : Option (List Char) :=
  fill? (supplied? request placed shown) (parts.dropWhile (· = .literal '/'))

section Endpoints

variable {request : OperationRequest} {placed : PlacedOperation} {context : Context}

theorem names_inPathOrder {bindings : List Binding} {state : State}
    (lowered : lowerAllBindings request placed {} = (.ok bindings, state))
    (sorted : context.pathBindings = inPathOrder placed.path (bindings.filter (·.location = .path))) :
    context.pathBindings.map names = pathNames request placed := by
  have listed : Location.path ∈ OpenApi.Location.all := by decide
  unfold pathNames located
  rw [sorted, ← lowerBindings_names listed lowered]
  exact List.map_mergeSort fun _ _ _ _ => rfl

theorem madeEndpoint_of_contexts {given : List Context} (found : request.placed = .ok placed)
    (made : contexts request = .ok given) (member : context ∈ given) :
    MadeEndpoint request placed context := by
  rcases contexts_cases found made member with ⟨-, gathered⟩ | ⟨-, _, _, _, variantMade⟩
  · have looked := madeLookup_of_ofFind gathered
    obtain ⟨bindings, state, lowered, sorted⟩ := looked.lowered
    exact ⟨looked.url, names_inPathOrder lowered sorted⟩
  · obtain ⟨bindings, state, _, _, _, lowered, sorted, -⟩ := (made_of_ofVariant variantMade).lowered
    exact ⟨(url_of_ofVariant variantMade).1, names_inPathOrder lowered sorted⟩

theorem pathNames_perm : (pathNames request placed).Perm ((located placed .path).map fun parameter =>
    (bindingName request placed parameter, parameter.name)) := List.mergeSort_perm _ _

theorem mem_pathNames {pair : String × String} : pair ∈ pathNames request placed ↔
    ∃ parameter ∈ located placed .path,
      (bindingName request placed parameter, parameter.name) = pair := by
  rw [pathNames_perm.mem_iff, List.mem_map]

theorem forall_mem_pathNames {condition : String × String → Prop} :
    (∀ pair ∈ pathNames request placed, condition pair) ↔
      ∀ parameter ∈ located placed .path,
        condition (bindingName request placed parameter, parameter.name) := by
  simp only [mem_pathNames, forall_exists_index, and_imp]
  exact ⟨fun given parameter inside => given _ parameter inside rfl,
    fun given _ parameter inside same => same ▸ given parameter inside⟩

theorem nodup_fst_pathNames_iff : ((pathNames request placed).map Prod.fst).Nodup ↔
    ((located placed .path).map (bindingWords request placed)).Nodup := by
  rw [(pathNames_perm.map Prod.fst).nodup_iff, List.map_map, ← nodup_bindingName_iff]
  rfl

theorem snd_pathNames_perm :
    ((pathNames request placed).map Prod.snd).Perm ((located placed .path).map Parameter.name) := by
  have projected : ((pathNames request placed).map Prod.snd).Perm _ := pathNames_perm.map Prod.snd
  rwa [List.map_map] at projected

/-- There is a value for a name exactly if a parameter of the path has it. -/
theorem isSome_supplied?_iff {shown : String → String} {name : String} :
    (supplied? request placed shown name).isSome = true ↔
      name ∈ (located placed .path).map Parameter.name := by
  unfold supplied?
  rw [Option.isSome_map, List.find?_isSome, List.mem_map]
  simp only [decide_eq_true_eq]

/-- The values that the holes are filled with are those of the pairs of the path. -/
theorem supplied?_eq {shown : String → String}
    (distinct : ((located placed .path).map Parameter.name).Nodup) :
    supplied? request placed shown = fun name =>
      ((pathNames request placed).find? (·.2 = name)).map fun pair => shown pair.1 := by
  funext name
  rw [map_find?_of_perm pathNames_perm, List.find?_map, Option.map_map]
  · rfl
  · intro first firstHeld second secondHeld firstNamed secondNamed
    obtain ⟨parameter, inside, rfl⟩ := List.mem_map.mp firstHeld
    obtain ⟨other, otherInside, rfl⟩ := List.mem_map.mp secondHeld
    have same := (of_decide_eq_true firstNamed).trans (of_decide_eq_true secondNamed).symm
    rw [List.inj_on_of_nodup_map distinct inside otherInside same]

variable {parts : List Part} {shown : String → String}
  (isTemplate : IsTemplate placed.path parts)
  (occurring : ∀ parameter ∈ located placed .path, Part.hole parameter.name ∈ parts)

include isTemplate occurring

/-- The expression of an endpoint is the path as it is, or a format string that fills its holes. -/
theorem MadeEndpoint.evaluate?_eq (made : MadeEndpoint request placed context) :
    evaluate? shown (endpointExpression context) =
      if (pathNames request placed).isEmpty then
        some (templateText (parts.dropWhile (· = .literal '/')))
      else (filling (parts.dropWhile (· = .literal '/')) (pathNames request placed)).value? shown := by
  have url : IsTemplate context.url (parts.dropWhile (· = .literal '/')) := by
    rw [made.url]
    exact isTemplate.trimStart (by decide)
  have named : ∀ binding ∈ context.pathBindings, ∃ parameter ∈ located placed .path,
      (bindingName request placed parameter, parameter.name) = names binding := fun binding member => by
    rw [← mem_pathNames, ← made.bound]
    exact List.mem_map_of_mem member
  have read := readExpression?_endpointExpression url
    (fun binding member => by
      obtain ⟨parameter, -, same⟩ := named binding member
      rw [← (Prod.mk.inj same).1]
      exact isPlain_bindingName _ _ _)
    (fun binding member => by
      obtain ⟨parameter, inside, same⟩ := named binding member
      rw [← (Prod.mk.inj same).2]
      exact isTemplate.braceless _ (occurring parameter inside))
  rw [← List.isEmpty_map (f := names), made.bound] at read
  unfold evaluate?
  rw [read, Option.bind_some]
  split
  · exact congrArg some url.whole
  · rfl

/-- The holes of a path are sorted by their places, which are all different. -/
theorem pairwise_pathNames_iff {apart : String × String → String × String → Prop}
    (distinct : ((located placed .path).map Parameter.name).Nodup) :
    (pathNames request placed).Pairwise apart ↔
      ∀ earlier ∈ pathNames request placed, ∀ later ∈ pathNames request placed,
        holePlace placed.path earlier.2 < holePlace placed.path later.2 → apart earlier later := by
  have places : ∀ pair ∈ pathNames request placed, Part.hole pair.2 ∈ parts :=
    forall_mem_pathNames.mpr occurring
  have sorted : (pathNames request placed).Pairwise fun left right =>
      holePlace placed.path left.2 ≤ holePlace placed.path right.2 := by
    refine List.Pairwise.imp of_decide_eq_true
      (List.pairwise_mergeSort (fun _ _ _ first second => ?_) (fun _ _ => ?_) _)
    · exact decide_eq_true (Nat.le_trans (of_decide_eq_true first) (of_decide_eq_true second))
    · simpa using Nat.le_total _ _
  have strict : (pathNames request placed).Pairwise fun left right =>
      holePlace placed.path left.2 < holePlace placed.path right.2 := by
    have holes : ((pathNames request placed).map Prod.snd).Nodup :=
      snd_pathNames_perm.nodup_iff.mpr distinct
    have differ := List.pairwise_map.mp holes
    refine (sorted.and differ).imp_of_mem fun firstHeld secondHeld order => ?_
    refine Nat.lt_of_le_of_ne order.1 fun same => order.2 ?_
    exact isTemplate.holePlace_inj (places _ firstHeld) (places _ secondHeld) same
  exact pairwise_iff_of_strict strict

/-- When the holes have parameters that are told apart, the expression gives the filled path. -/
theorem MadeEndpoint.evaluate?_eq_filledPath? (made : MadeEndpoint request placed context)
    (distinct : ((located placed .path).map Parameter.name).Nodup)
    (paired : ∀ name, Part.hole name ∈ parts → name ∈ (located placed .path).map Parameter.name)
    (names : ((pathNames request placed).map Prod.fst).Nodup)
    (apart : (pathNames request placed).Pairwise fun earlier later => earlier.1 ≠ later.2) :
    evaluate? shown (endpointExpression context) = filledPath? request placed parts shown := by
  have paired : ∀ name, Part.hole name ∈ parts.dropWhile (· = .literal '/') →
      name ∈ (pathNames request placed).map Prod.snd := fun name inside =>
    snd_pathNames_perm.mem_iff.mpr (paired name (hole_mem_dropWhile.mp inside))
  rw [made.evaluate?_eq isTemplate occurring, filledPath?, supplied?_eq distinct]
  split
  · next empty =>
    refine (fill?_of_no_holes fun name inside => ?_).symm
    have absent := paired name inside
    rw [List.isEmpty_iff.mp empty] at absent
    cases absent
  · exact value?_filling names (snd_pathNames_perm.nodup_iff.mpr distinct) apart
      (forall_mem_pathNames.mpr fun parameter inside =>
        hole_mem_dropWhile.mpr (occurring parameter inside)) paired

/-- When the endpoint of a request is the filled path, whatever its members show. -/
theorem MadeEndpoint.evaluates_iff (made : MadeEndpoint request placed context)
    (distinct : ((located placed .path).map Parameter.name).Nodup) :
    (∀ shown, ∃ url, evaluate? shown (endpointExpression context) = some url ∧
        filledPath? request placed parts shown = some url) ↔
      (∀ name, Part.hole name ∈ parts → name ∈ (located placed .path).map Parameter.name) ∧
      ((located placed .path).map (bindingWords request placed)).Nodup ∧
      ∀ earlier ∈ located placed .path, ∀ later ∈ located placed .path,
        holePlace placed.path earlier.name < holePlace placed.path later.name →
          bindingName request placed earlier ≠ later.name := by
  have apart : (pathNames request placed).Pairwise (fun earlier later => earlier.1 ≠ later.2) ↔
      ∀ earlier ∈ located placed .path, ∀ later ∈ located placed .path,
        holePlace placed.path earlier.name < holePlace placed.path later.name →
          bindingName request placed earlier ≠ later.name := by
    simp only [pairwise_pathNames_iff isTemplate occurring distinct, forall_mem_pathNames]
  rw [← apart, ← nodup_fst_pathNames_iff]
  constructor
  · intro given
    obtain ⟨url, evaluated, filled⟩ := given id
    refine ⟨fun name inside => ?_, ?_⟩
    · exact isSome_supplied?_iff.mp (isSome_of_fill? filled (hole_mem_dropWhile.mpr inside))
    · have value := (made.evaluate?_eq isTemplate occurring).symm.trans evaluated
      by_cases empty : (pathNames request placed).isEmpty = true
      · rw [List.isEmpty_iff.mp empty]
        exact ⟨List.nodup_nil, List.Pairwise.nil⟩
      · rw [if_neg empty] at value
        exact apart_of_filling value
  · rintro ⟨paired, names, apart⟩ shown
    have filled : ∃ url, filledPath? request placed parts shown = some url :=
      exists_fill? fun name inside =>
        isSome_supplied?_iff.mpr (paired name (hole_mem_dropWhile.mp inside))
    obtain ⟨url, filled⟩ := filled
    exact ⟨url, (made.evaluate?_eq_filledPath? isTemplate occurring distinct paired names
      apart).trans filled, filled⟩

end Endpoints

/-- The source of a request gives its endpoint by this expression. -/
theorem hasLines_endpoint {context : Context} (plain : context.findKey = none) :
    HasLines context.file.contents ["    fn endpoint(&self) -> Cow<'static, str> \x7b",
      "        " ++ endpointExpression context, "    \x7d"] := by
  have inside : endpointLines context <:+: moduleLines context := by
    unfold moduleLines
    rw [plain]
    exact (List.infix_append _ (endpointLines context) _).trans (List.suffix_append _ _).isInfix
  rw [context.contents_file]
  refine hasLines_ofLines (List.IsInfix.trans ?_ inside)
  unfold endpointLines
  simp only [List.append_assoc]
  exact ⟨["impl RestEndpoint for Request" ++ elidedLifetime context.borrows ++ " \x7b",
    "    fn method(&self) -> http::Method \x7b",
    "        http::Method::" ++ context.method.wireName, "    \x7d", ""], _, rfl⟩

/-- The endpoint of a generated request is the path of its operation, without leading slashes, with
the values of the path's parameters in their holes exactly if each hole has a parameter, the
parameters are spelled differently, and none is bound by the name of one whose hole comes later.
Holes are renamed to bindings one after the other, so such a binding would be taken for that hole. -/
theorem endpoint_fills_path_iff {request : OperationRequest} {placed : PlacedOperation}
    {given : List Context} {parts : List Part} (found : request.placed = .ok placed)
    (made : contexts request = .ok given) (isTemplate : IsTemplate placed.path parts)
    (distinct : ((located placed .path).map Parameter.name).Nodup)
    (occurring : ∀ parameter ∈ located placed .path, Part.hole parameter.name ∈ parts) :
    generate request = .ok (given.map Context.file) ∧ ∀ context ∈ given,
      (context.findKey = none →
        HasLines context.file.contents ["    fn endpoint(&self) -> Cow<'static, str> \x7b",
          "        " ++ endpointExpression context, "    \x7d"]) ∧
      ((∀ shown, ∃ url, evaluate? shown (endpointExpression context) = some url ∧
          filledPath? request placed parts shown = some url) ↔
        (∀ name, Part.hole name ∈ parts → name ∈ (located placed .path).map Parameter.name) ∧
        ((located placed .path).map (bindingWords request placed)).Nodup ∧
        ∀ earlier ∈ located placed .path, ∀ later ∈ located placed .path,
          holePlace placed.path earlier.name < holePlace placed.path later.name →
            bindingName request placed earlier ≠ later.name) :=
  ⟨generate_of_contexts made, fun _ member => ⟨hasLines_endpoint,
    (madeEndpoint_of_contexts found made member).evaluates_iff isTemplate occurring distinct⟩⟩

/-- A request for a zone in what the given parameter names. -/
def nestedZone (owner : String) : OperationRequest where
  spec := {
    version := "3.1.0"
    paths := [("/v2/\x7b" ++ owner ++ "\x7d/zones/\x7bzone_id\x7d",
      PathItem.setOperation {} .get {
        id := some "show"
        parameters := [pathParameter owner, pathParameter "zone_id"] })] }
  resource := ⟨"dns", "zones"⟩
  operation := "show"

/-- The path of a zone. -/
def zoneParts (owner : String) : List Part :=
  "/v2/".toList.map .literal ++ [.hole owner] ++ "/zones/".toList.map .literal ++ [.hole "zone_id"]

/-- What stands in the path of a zone without slashes before it. -/
def zoneUrl (owner zone : String) : List Char :=
  "v2/".toList ++ owner.toList ++ "/zones/".toList ++ zone.toList

theorem hole_mem_zoneParts {owner name : String} (inside : Part.hole name ∈ zoneParts owner) :
    name = owner ∨ name = "zone_id" := by
  simpa [zoneParts] using inside

theorem fill?_zoneParts {owner first second : String} {value : String → Option String}
    (given : value owner = some first) (zone : value "zone_id" = some second) :
    fill? value ((zoneParts owner).dropWhile (· = .literal '/')) = some (zoneUrl first second) := by
  simp [zoneParts, zoneUrl, fill?, Part.fill?, given, zone]

theorem nestedZone_placed (owner : String) : ∃ placed, (nestedZone owner).placed = .ok placed ∧
    placed.path = "/v2/\x7b" ++ owner ++ "\x7d/zones/\x7bzone_id\x7d" ∧
    located placed .path = [pathParameter owner, pathParameter "zone_id"] :=
  ⟨_, rfl, rfl, rfl⟩

/-- The values for a zone are those that its parameters are bound to. -/
theorem supplied?_nestedZone {owner : String} {placed : PlacedOperation} (apart : owner ≠ "zone_id")
    (listed : located placed .path = [pathParameter owner, pathParameter "zone_id"])
    (shown : String → String) :
    supplied? (nestedZone owner) placed shown owner =
        some (shown (bindingName (nestedZone owner) placed (pathParameter owner))) ∧
      supplied? (nestedZone owner) placed shown "zone_id" =
        some (shown (bindingName (nestedZone owner) placed (pathParameter "zone_id"))) := by
  unfold supplied?
  rw [listed]
  simp [pathParameter, apart]

/-- The endpoint of a zone in a project is its path with the values of both. -/
theorem endpoint_fills_path_iff_project :
    ∃ given, contexts (nestedZone "project_id") = .ok given ∧ given.length = 1 ∧
      ∀ context ∈ given, ∀ shown, evaluate? shown (endpointExpression context) =
        some (zoneUrl (shown "project_id") (shown "id")) := by
  have counted : (contexts (nestedZone "project_id")).toOption.map List.length = some 1 := by
    decide +kernel
  obtain ⟨given, made, single⟩ := Option.map_eq_some_iff.mp counted
  obtain ⟨placed, found, path, listed⟩ := nestedZone_placed "project_id"
  have bound : bindingName (nestedZone "project_id") placed (pathParameter "project_id") =
      "project_id" ∧
      bindingName (nestedZone "project_id") placed (pathParameter "zone_id") = "id" := by
    unfold bindingName scope
    rw [path]
    decide +kernel
  have isTemplate : IsTemplate placed.path (zoneParts "project_id") := by
    rw [path]
    exact ⟨by decide, by decide⟩
  refine ⟨given, toOption_eq_some.mp made, single, fun context member shown => ?_⟩
  have each := (endpoint_fills_path_iff found (toOption_eq_some.mp made) isTemplate
    (by rw [listed]; decide) (by rw [listed]; decide)).2 context member
  obtain ⟨url, evaluated, filled⟩ := each.2.mpr ⟨by
      rw [listed]
      intro name inside
      rcases hole_mem_zoneParts inside with rfl | rfl
      all_goals decide, by
      rw [← nodup_bindingName_iff, listed]
      simp only [List.map_cons, List.map_nil, bound]
      decide, by
      rw [listed, path]
      simp only [bindingName, scope, path]
      decide +kernel⟩ shown
  obtain ⟨project, zone⟩ := supplied?_nestedZone (by decide) listed shown
  rw [bound.1] at project
  rw [bound.2] at zone
  rw [evaluated, ← filled]
  exact fill?_zoneParts project zone

/-- In a path that names a zone twice, the binding of the first is taken for the hole of the second.
Both holes are named after the second, the value of the first is shown nowhere, and the endpoint has
no value. -/
theorem endpoint_repeats_hole :
    ∃ placed given, (nestedZone "zone-id").placed = .ok placed ∧
      contexts (nestedZone "zone-id") = .ok given ∧ given.length = 1 ∧
      IsTemplate placed.path (zoneParts "zone-id") ∧
      ((located placed .path).map Parameter.name).Nodup ∧
      (∀ parameter ∈ located placed .path, Part.hole parameter.name ∈ zoneParts "zone-id") ∧
      ∀ context ∈ given,
        endpointTemplate context.url context.pathBindings = "v2/\x7bid\x7d/zones/\x7bid\x7d" ∧
        ∀ shown, evaluate? shown (endpointExpression context) = none ∧
        filledPath? (nestedZone "zone-id") placed (zoneParts "zone-id") shown =
          some (zoneUrl (shown "zone_id") (shown "id")) := by
  have counted : (contexts (nestedZone "zone-id")).toOption.map List.length = some 1 := by
    decide +kernel
  obtain ⟨given, made, single⟩ := Option.map_eq_some_iff.mp counted
  obtain ⟨placed, found, path, listed⟩ := nestedZone_placed "zone-id"
  have bound : bindingName (nestedZone "zone-id") placed (pathParameter "zone-id") = "zone_id" ∧
      bindingName (nestedZone "zone-id") placed (pathParameter "zone_id") = "id" := by
    unfold bindingName scope
    rw [path]
    decide +kernel
  have isTemplate : IsTemplate placed.path (zoneParts "zone-id") := by
    rw [path]
    exact ⟨by decide, by decide⟩
  have occurring : ∀ parameter ∈ located placed .path,
      Part.hole parameter.name ∈ zoneParts "zone-id" := by
    rw [listed]
    decide
  have ordered : pathNames (nestedZone "zone-id") placed =
      [("zone_id", "zone-id"), ("id", "zone_id")] := by
    unfold pathNames
    rw [listed, path]
    simp only [List.map_cons, List.map_nil, bound]
    exact List.mergeSort_of_pairwise (by decide)
  refine ⟨placed, given, found, toOption_eq_some.mp made, single, isTemplate,
    by rw [listed]; decide, occurring, fun context member => ⟨?_, fun shown => ⟨?_, ?_⟩⟩⟩
  all_goals have endpoint := madeEndpoint_of_contexts found (toOption_eq_some.mp made) member
  · rw [endpointTemplate_eq, endpoint.bound, endpoint.url, ordered, path]
    decide
  · rw [endpoint.evaluate?_eq isTemplate occurring, ordered, if_neg (by decide)]
    unfold filling Expression.value?
    exact if_neg (by decide)
  · obtain ⟨first, second⟩ := supplied?_nestedZone (by decide) listed shown
    rw [bound.1] at first
    rw [bound.2] at second
    exact fill?_zoneParts first second

end ServiceForge.Sdk
