/-
This file says what models are read from when the document is a JSON document, in which
scalars have their types and keys are texts: which documents each reader takes, and which
members of an object the fields of a record are.
-/

import ServiceForge.Document.Reader
import ServiceForge.Proofs.Except
import ServiceForge.Proofs.Json

namespace ServiceForge.Document

/-! ### Values of JSON documents -/

section Values

variable {json : Json}

theorem ofJsonItems_eq (items : List Json) : Value.ofJsonItems items = items.map Value.ofJson := by
  induction items with
  | nil => rfl
  | cons item rest inductionHypothesis => rw [Value.ofJsonItems, inductionHypothesis, List.map_cons]

/-- Only an array is read as items, which are its own. -/
theorem items_ofJson {read : List Value} (ok : Reader.items .typed (.ofJson json) = .ok read) :
    ∃ items, json = .array items ∧ read = items.map Value.ofJson := by
  cases json with
  | array items =>
    cases ok
    exact ⟨items, rfl, ofJsonItems_eq items⟩
  | _ => cases ok

/-- The keys of a JSON document are texts. -/
theorem mapM_keyText (members : List (String × Json)) :
    (Value.ofJsonMembers members).mapM (fun member => do
        return (← Reader.keyText .typed member.1, member.2)) =
      .ok (members.map fun member => (member.1, Value.ofJson member.2)) := by
  induction members with
  | nil => rfl
  | cons member rest inductionHypothesis =>
    rw [Value.ofJsonMembers, List.mapM_cons, inductionHypothesis]
    rfl

/-- Exactly objects are read as members, which are their own. -/
theorem members_ofJson {read : List (String × Value)} :
    Reader.members .typed (.ofJson json) = .ok read ↔
      ∃ members, json = .object members ∧
        read = members.map fun member => (member.1, .ofJson member.2) := by
  constructor
  · intro ok
    cases json with
    | object members =>
      obtain ⟨_, -, ok⟩ := bind_eq_ok.mp ok
      rw [mapM_keyText] at ok
      cases ok
      exact ⟨members, rfl, rfl⟩
    | _ => cases ok
  · rintro ⟨members, rfl, rfl⟩
    exact mapM_keyText members

end Values

/-! ### Readers -/

section Readers

variable {α : Type} {read : Reader α} {json : Json}

theorem text_ofJson {text : String} : ofJson Reader.text json = .ok text ↔ json = .string text := by
  constructor
  · intro ok
    cases json with
    | string value =>
      cases ok
      rfl
    | _ => cases ok
  · rintro rfl
    rfl

theorem flag_ofJson {flag : Bool} : ofJson Reader.flag json = .ok flag ↔ json = .bool flag := by
  constructor
  · intro ok
    cases json with
    | bool value =>
      cases ok
      rfl
    | _ => cases ok
  · rintro rfl
    rfl

theorem natural_ofJson {number : Nat} :
    ofJson Reader.natural json = .ok number ↔ json = .number (.integer number) := by
  constructor
  · intro ok
    cases json with
    | number value =>
      cases value with
      | integer value =>
        change (if 0 ≤ value then pure value.toNat else mismatch _) = _ at ok
        split at ok
        · next natural =>
          cases ok
          rw [Int.toNat_of_nonneg natural]
        · cases ok
      | float value => cases ok
    | _ => cases ok
  · rintro rfl
    rfl

theorem isAbsent_ofJson (json : Json) : Reader.isAbsent (.ofJson json) = .ok json.isNull := by
  cases json <;> rfl

/-- Null stands for the absence of an optional value. -/
theorem optional_ofJson {value : Option α} :
    ofJson (Reader.optional read) json = .ok value ↔
      (json.isNull = true ∧ value = none) ∨
        json.isNull = false ∧ ∃ result, ofJson read json = .ok result ∧ value = some result := by
  have unfolded : ofJson (Reader.optional read) json =
      if json.isNull then .ok none else do return some (← ofJson read json) := by
    rw [ofJson, Reader.optional, isAbsent_ofJson]
    rfl
  rw [unfolded]
  cases json.isNull with
  | true => simp [eq_comm]
  | false =>
    rw [if_neg Bool.false_ne_true, bind_eq_ok]
    simp [pure, Except.pure, eq_comm]

/-- Exactly arrays are read as lists, item by item. -/
theorem list_ofJson {values : List α} :
    ofJson (Reader.list read) json = .ok values ↔
      ∃ items, json = .array items ∧ items.mapM (ofJson read) = .ok values := by
  constructor
  · intro ok
    obtain ⟨sources, isRead, each⟩ := bind_eq_ok.mp ok
    obtain ⟨items, rfl, rfl⟩ := items_ofJson isRead
    rw [List.mapM_map] at each
    exact ⟨items, rfl, each⟩
  · rintro ⟨items, rfl, each⟩
    refine bind_eq_ok.mpr ⟨items.map Value.ofJson, ?_, ?_⟩
    · rw [← ofJsonItems_eq]
      rfl
    · rw [List.mapM_map]
      exact each

/-- Reads the value of a member. -/
def readMember (read : Reader α) (member : String × Json) : Except Error (String × α) := do
  return (member.1, ← ofJson read member.2)

/-- Exactly objects are read as maps, member by member. The last of equal keys counts. -/
theorem map_ofJson {values : OrderedMap α} :
    ofJson (Reader.map read) json = .ok values ↔
      ∃ members entries, json = .object members ∧ members.mapM (readMember read) = .ok entries ∧
        values = OrderedMap.ofEntries entries := by
  constructor
  · intro ok
    obtain ⟨sources, isRead, ok⟩ := bind_eq_ok.mp ok
    obtain ⟨members, rfl, rfl⟩ := members_ofJson.mp isRead
    obtain ⟨entries, each, returned⟩ := bind_eq_ok.mp ok
    cases returned
    rw [List.mapM_map] at each
    exact ⟨members, entries, rfl, each, rfl⟩
  · rintro ⟨members, entries, rfl, each, rfl⟩
    refine bind_eq_ok.mpr ⟨_, members_ofJson.mpr ⟨members, rfl, rfl⟩, ?_⟩
    rw [List.mapM_map]
    exact bind_eq_ok.mpr ⟨entries, each, rfl⟩

section Members

variable {members : List (String × Json)} {entries : List (String × α)}
  (ok : members.mapM (readMember read) = .ok entries)

include ok

theorem keys_of_readMember : OrderedMap.keys entries = OrderedMap.keys members := by
  induction members generalizing entries with
  | nil =>
    cases ok
    rfl
  | cons member rest inductionHypothesis =>
    rw [List.mapM_cons] at ok
    obtain ⟨entry, converted, ok⟩ := bind_eq_ok.mp ok
    obtain ⟨others, convertedRest, returned⟩ := bind_eq_ok.mp ok
    obtain ⟨value, -, same⟩ := bind_eq_ok.mp converted
    cases returned
    cases same
    exact congrArg (member.1 :: ·) (inductionHypothesis convertedRest)

/-- What is held under a key is read from what was held under it. -/
theorem get?_of_readMember {name : String} {source : Json}
    (found : OrderedMap.get? members name = some source) :
    ∃ value, OrderedMap.get? entries name = some value ∧ ofJson read source = .ok value := by
  induction members generalizing entries with
  | nil => cases found
  | cons member rest inductionHypothesis =>
    rw [List.mapM_cons] at ok
    obtain ⟨entry, converted, ok⟩ := bind_eq_ok.mp ok
    obtain ⟨others, convertedRest, returned⟩ := bind_eq_ok.mp ok
    obtain ⟨value, isRead, same⟩ := bind_eq_ok.mp converted
    cases returned
    cases same
    rw [OrderedMap.get?_cons] at found ⊢
    split at found
    · next here =>
      cases found
      exact ⟨value, if_pos here, isRead⟩
    · next apart =>
      rw [if_neg apart]
      exact inductionHypothesis convertedRest found

end Members

/-- What is read as a map has an entry for each member of an object. -/
theorem entries_ofJson {values : OrderedMap α} (ok : ofJson (Reader.map read) json = .ok values) :
    ∃ members, json = .object members ∧
      (∀ entry ∈ values, ∃ member ∈ members, member.1 = entry.1 ∧
        ofJson read member.2 = .ok entry.2) ∧
      ∀ name ∈ OrderedMap.keys members, name ∈ OrderedMap.keys values := by
  obtain ⟨members, entries, rfl, each, rfl⟩ := map_ofJson.mp ok
  refine ⟨members, rfl, fun entry isEntry => ?_, fun name isName => ?_⟩
  · obtain ⟨member, isMember, converted⟩ :=
      (mem_mapM each).mp (OrderedMap.mem_of_mem_ofEntries isEntry)
    obtain ⟨value, isRead, same⟩ := bind_eq_ok.mp converted
    cases same
    exact ⟨member, isMember, rfl, isRead⟩
  · obtain ⟨member, isMember, rfl⟩ := List.mem_map.mp isName
    obtain ⟨entry, converted⟩ := converts_of_mapM each isMember
    obtain ⟨value, -, same⟩ := bind_eq_ok.mp converted
    have isEntry := (mem_mapM each).mpr ⟨member, isMember, converted⟩
    cases same
    exact OrderedMap.mem_keys_ofEntries (List.mem_map_of_mem isEntry)

/-- A choice by its name has that name. -/
theorem name_of_named {choices : List α} {name : α → String} {given : String} {choice : α}
    (ok : Reader.named (choices.map fun choice => (name choice, choice)) given = .ok choice) :
    name choice = given ∧ choice ∈ choices := by
  unfold Reader.named at ok
  split at ok
  · next found isFound =>
    cases ok
    obtain ⟨listed, member, same⟩ := List.mem_map.mp (OrderedMap.mem_of_get? isFound)
    cases same
    exact ⟨rfl, member⟩
  · cases ok

/-- A choice is read from its name, alone or as the key of null. -/
theorem choice_ofJson {choices : List (String × α)} {value : α}
    (ok : ofJson (Reader.choice choices) json = .ok value) :
    ∃ name, Reader.named choices name = .ok value ∧
      (json = .string name ∨ json = .object [(name, .null)]) := by
  have textual (ok : (do Reader.named choices (← ofJson Reader.text json)) = .ok value) :
      ∃ name, Reader.named choices name = .ok value ∧
        (json = .string name ∨ json = .object [(name, .null)]) := by
    obtain ⟨name, isName, ok⟩ := bind_eq_ok.mp ok
    exact ⟨name, ok, Or.inl (text_ofJson.mp isName)⟩
  match json with
  | .object [(name, content)] =>
    have ok : (do
        if ← Reader.isAbsent (.ofJson content) then Reader.named choices name
        else mismatch "expected null") = Except.ok value := ok
    rw [isAbsent_ofJson] at ok
    cases content with
    | null => exact ⟨name, ok, Or.inr rfl⟩
    | _ => cases ok
  | .null | .bool _ | .number _ | .string _ | .array _ => exact textual ok
  | .object [] | .object (_ :: _ :: _) => exact textual ok

end Readers

/-! ### Free values -/

/-- An object is read as JSON member by member. -/
theorem json_object (members : List (String × Json)) :
    ofJson Reader.json (.object members) = do
      return .object (OrderedMap.ofEntries (← members.mapM (readMember Reader.json))) := by
  have each : Reader.jsonMembers .typed (Value.ofJsonMembers members) =
      members.mapM (readMember Reader.json) := by
    induction members with
    | nil => rfl
    | cons member rest inductionHypothesis =>
      rw [Value.ofJsonMembers, Reader.jsonMembers, inductionHypothesis, List.mapM_cons, readMember,
        bind_assoc]
      rfl
  rw [← each]
  rfl

/-- An array is read as JSON item by item. -/
theorem json_array (items : List Json) :
    ofJson Reader.json (.array items) = do return .array (← items.mapM (ofJson Reader.json)) := by
  have each : Reader.jsonItems .typed (Value.ofJsonItems items) =
      items.mapM (ofJson Reader.json) := by
    induction items with
    | nil => rfl
    | cons item rest inductionHypothesis =>
      rw [Value.ofJsonItems, Reader.jsonItems, inductionHypothesis, List.mapM_cons]
      rfl
  rw [← each]
  rfl

section Free

variable {mode : Mode}

mutual

/-- What is read as a free value has distinct keys. -/
theorem isKeyed_of_read (value : Value) {json : Json} (ok : Reader.json mode value = .ok json) :
    json.isKeyed = true := by
  match value with
  | .atom atom =>
    obtain ⟨typed, -, ok⟩ := bind_eq_ok.mp ok
    cases typed <;> cases ok <;> rfl
  | .array tag items =>
    obtain ⟨_, -, ok⟩ := bind_eq_ok.mp ok
    obtain ⟨results, areItems, returned⟩ := bind_eq_ok.mp ok
    cases returned
    exact Json.everywhere_array.mpr ⟨rfl, isKeyed_of_readItems items areItems⟩
  | .object tag members =>
    obtain ⟨_, -, ok⟩ := bind_eq_ok.mp ok
    obtain ⟨results, areMembers, returned⟩ := bind_eq_ok.mp ok
    cases returned
    refine Json.isKeyed_object.mpr ⟨OrderedMap.nodup_keys_ofEntries _, fun entry held => ?_⟩
    exact isKeyed_of_readMembers members areMembers entry (OrderedMap.mem_of_mem_ofEntries held)

theorem isKeyed_of_readItems (items : List Value) {results : List Json}
    (ok : Reader.jsonItems mode items = .ok results) :
    ∀ result ∈ results, result.isKeyed = true := by
  match items with
  | [] =>
    cases ok
    exact List.forall_mem_nil _
  | item :: rest =>
    obtain ⟨first, isFirst, ok⟩ := bind_eq_ok.mp ok
    obtain ⟨others, areOthers, returned⟩ := bind_eq_ok.mp ok
    cases returned
    exact List.forall_mem_cons.mpr
      ⟨isKeyed_of_read item isFirst, isKeyed_of_readItems rest areOthers⟩

theorem isKeyed_of_readMembers (members : List (Key × Value)) {results : List (String × Json)}
    (ok : Reader.jsonMembers mode members = .ok results) :
    ∀ result ∈ results, result.2.isKeyed = true := by
  match members with
  | [] =>
    cases ok
    exact List.forall_mem_nil _
  | (key, value) :: rest =>
    obtain ⟨name, -, ok⟩ := bind_eq_ok.mp ok
    obtain ⟨first, isFirst, ok⟩ := bind_eq_ok.mp ok
    obtain ⟨others, areOthers, returned⟩ := bind_eq_ok.mp ok
    cases returned
    exact List.forall_mem_cons.mpr
      ⟨isKeyed_of_read value isFirst, isKeyed_of_readMembers rest areOthers⟩

end

end Free

theorem mapM_readMember {members : List (String × Json)}
    (each : ∀ member ∈ members, ofJson Reader.json member.2 = .ok member.2) :
    members.mapM (readMember Reader.json) = .ok members := by
  have read : ∀ member ∈ members, readMember Reader.json member = .ok (id member) :=
    fun member held => by
      rw [readMember, each member held]
      rfl
  rw [mapM_eq_ok_map read, List.map_id]

/-- A document in which no object has one key twice is read as it is. -/
theorem json_of_isKeyed {document : Json} (keyed : document.isKeyed) :
    ofJson Reader.json document = .ok document := by
  induction document using Json.inductionOn with
  | null | bool _ | number _ | string _ => rfl
  | array items each =>
    have read : items.mapM (ofJson Reader.json) = .ok (items.map id) :=
      mapM_eq_ok_map fun item member =>
        each item member ((Json.everywhere_array.mp keyed).2 item member)
    rw [json_array, read, List.map_id]
    rfl
  | object members each =>
    obtain ⟨distinct, inside⟩ := Json.isKeyed_object.mp keyed
    rw [json_object, mapM_readMember fun member held => each member held (inside member held)]
    exact congrArg (Except.ok ∘ Json.object) (OrderedMap.ofEntries_eq_self distinct)

/-! ### Fields -/

/-- The members of an object whose keys a model does not declare. -/
def undeclared {α : Type} (names : List String) (members : OrderedMap α) : OrderedMap α :=
  members.filter fun member => !names.contains member.1

/-- Whether fields are the members of an object with the names that a model declares. -/
structure Declares (fields : Fields) (names : List String) (members : List (String × Json)) :
    Prop where
  mode : fields.mode = .typed
  declared : ∀ name ∈ names,
    fields.declared.lookup name = (OrderedMap.get? members name).map Value.ofJson

/-- Whether members can stand beside the declared ones. -/
structure IsRest (names : List String) (rest : OrderedMap Json) : Prop where
  keyed : Json.isKeyed (.object rest) = true
  apart : ∀ name ∈ OrderedMap.keys rest, name ∉ names

/-- Whether fields are the declared members of an object and the rest of it. -/
structure Splits (fields : Fields) (names : List String) (members : List (String × Json)) : Prop
    extends Declares fields names members, IsRest names fields.rest where
  rest : Json.isKeyed (.object members) → fields.rest = undeclared names members

section Fields

variable {names : List String} {members : List (String × Json)} {json : Json} {fields : Fields}

/-- The declared members of an object are found among its members. -/
theorem lookup_declared {name : String} (listed : name ∈ names) (members : List (String × Json)) :
    ((members.map fun member => (member.1, Value.ofJson member.2)).filter fun member =>
        names.contains member.1).lookup name =
      (OrderedMap.get? members name).map Value.ofJson := by
  induction members with
  | nil => rfl
  | cons member rest inductionHypothesis =>
    rw [List.map_cons, List.filter_cons, OrderedMap.get?_cons]
    by_cases same : name = member.1
    · subst same
      rw [if_pos (List.contains_iff_mem.mpr listed), if_pos rfl, List.lookup_cons_self]
      rfl
    · rw [if_neg same, ← inductionHypothesis]
      split
      · rw [List.lookup_cons, show (name == member.1) = false by simpa using same]
      · rfl

/-- Keys that are not declared keep their values among the undeclared members. -/
theorem get?_undeclared {name : String} (unlisted : name ∉ names) :
    OrderedMap.get? (undeclared names members) name = OrderedMap.get? members name := by
  induction members with
  | nil => rfl
  | cons member rest inductionHypothesis =>
    rw [undeclared, List.filter_cons, ← undeclared, OrderedMap.get?_cons]
    by_cases same : name = member.1
    · subst same
      rw [if_pos (by simpa using unlisted), OrderedMap.get?_cons, if_pos rfl, if_pos rfl]
    · rw [if_neg same, ← inductionHypothesis]
      split
      · rw [OrderedMap.get?_cons, if_neg same]
      · rfl

theorem nodup_keys_undeclared (distinct : (OrderedMap.keys members).Nodup) :
    (OrderedMap.keys (undeclared names members)).Nodup :=
  (List.filter_sublist.map Prod.fst).nodup distinct

theorem keyed_undeclared (keyed : Json.isKeyed (.object members)) :
    Json.isKeyed (.object (undeclared names members)) := by
  obtain ⟨distinct, each⟩ := Json.isKeyed_object.mp keyed
  exact Json.isKeyed_object.mpr ⟨nodup_keys_undeclared distinct,
    fun member held => each member ((List.mem_filter.mp held).1)⟩

theorem checkDistinct_declared (distinct : (OrderedMap.keys members).Nodup) :
    Fields.checkDistinct ((members.map fun member => (member.1, Value.ofJson member.2)).filter
      fun member => names.contains member.1) = .ok () := by
  refine if_pos ((List.filter_sublist.map Prod.fst).nodup ?_)
  rw [List.map_map]
  exact distinct

/-- The members that are not declared are read as free values. -/
theorem mapM_undeclared :
    ((members.map fun member => (member.1, Value.ofJson member.2)).filter fun member =>
        !names.contains member.1).mapM (fun member => do
          return (member.1, ← Reader.json .typed member.2)) =
      (undeclared names members).mapM (readMember Reader.json) := by
  rw [List.filter_map, List.mapM_map]
  rfl

/-- The members that a record does not declare can stand beside the declared ones. -/
theorem isRest_of_ofOpen {mode : Mode} {value : Value}
    (ok : Fields.ofOpen names mode value = .ok fields) : IsRest names fields.rest := by
  obtain ⟨members, -, ok⟩ := bind_eq_ok.mp ok
  obtain ⟨_, -, ok⟩ := bind_eq_ok.mp ok
  obtain ⟨rest, isRest, returned⟩ := bind_eq_ok.mp ok
  cases returned
  have each : ∀ entry ∈ OrderedMap.ofEntries rest, entry.1 ∉ names ∧ entry.2.isKeyed = true := by
    intro entry held
    obtain ⟨source, isSource, converted⟩ :=
      (mem_mapM isRest).mp (OrderedMap.mem_of_mem_ofEntries held)
    obtain ⟨json, isRead, same⟩ := bind_eq_ok.mp converted
    cases same
    have undeclared := (List.mem_filter.mp isSource).2
    exact ⟨by simpa using undeclared, isKeyed_of_read source.2 isRead⟩
  refine ⟨Json.isKeyed_object.mpr ⟨OrderedMap.nodup_keys_ofEntries rest,
    fun entry held => (each entry held).2⟩, fun name listed => ?_⟩
  obtain ⟨entry, held, rfl⟩ := List.mem_map.mp listed
  exact (each entry held).1

/-- A record that may have other members splits an object. -/
theorem splits_of_ofOpen (ok : Fields.ofOpen names .typed (.ofJson json) = .ok fields) :
    ∃ members, json = .object members ∧ Splits fields names members := by
  have beside := isRest_of_ofOpen ok
  obtain ⟨sources, isRead, ok⟩ := bind_eq_ok.mp ok
  obtain ⟨members, rfl, rfl⟩ := members_ofJson.mp isRead
  obtain ⟨_, -, ok⟩ := bind_eq_ok.mp ok
  obtain ⟨rest, isRest, returned⟩ := bind_eq_ok.mp ok
  cases returned
  rw [mapM_undeclared] at isRest
  refine ⟨members, rfl, ⟨rfl, fun _ listed => lookup_declared listed members⟩, beside, ?_⟩
  intro keyed
  have kept : Json.isKeyed (.object (undeclared names members)) := keyed_undeclared keyed
  rw [mapM_readMember fun member held => json_of_isKeyed (Json.isKeyed_of_mem kept held)] at isRest
  cases isRest
  exact OrderedMap.ofEntries_eq_self (Json.isKeyed_object.mp kept).1

/-- The fields of an object with distinct keys. -/
theorem ofOpen_object (distinct : (OrderedMap.keys members).Nodup)
    (keyed : Json.isKeyed (.object (undeclared names members))) :
    ∃ fields, Fields.ofOpen names .typed (.ofJson (.object members)) = .ok fields ∧
      Declares fields names members ∧ fields.rest = undeclared names members := by
  refine ⟨⟨.typed, _, OrderedMap.ofEntries (undeclared names members)⟩,
    bind_eq_ok.mpr ⟨_, members_ofJson.mpr ⟨members, rfl, rfl⟩,
      bind_eq_ok.mpr ⟨(), checkDistinct_declared distinct, bind_eq_ok.mpr ⟨_, ?_, rfl⟩⟩⟩,
    ⟨rfl, fun _ listed => lookup_declared listed members⟩,
    OrderedMap.ofEntries_eq_self (Json.isKeyed_object.mp keyed).1⟩
  rw [mapM_undeclared]
  exact mapM_readMember fun member held => json_of_isKeyed (Json.isKeyed_of_mem keyed held)

/-- The fields of a record that is given by position have their names in order. -/
theorem declares_positions (items : List Json) :
    Declares ⟨.typed, names.zip (items.map Value.ofJson), []⟩ names (names.zip items) := by
  refine ⟨rfl, fun name _ => ?_⟩
  rw [List.zip_map_right]
  exact OrderedMap.get?_mapValues Value.ofJson (names.zip items) name

/-- A record without other members declares those of an object, or the items of an array in order.
-/
theorem declares_of_ofClosed (ok : Fields.ofClosed names .typed (.ofJson json) = .ok fields) :
    ∃ members, Declares fields names members ∧ fields.rest = [] ∧
      (json = .object members ∨ ∃ items, json = .array items) := by
  cases json with
  | array items =>
    rw [Value.ofJson, Fields.ofClosed, ofJsonItems_eq] at ok
    split at ok
    · cases ok
    · cases ok
      exact ⟨names.zip items, declares_positions items, rfl, Or.inr ⟨items, rfl⟩⟩
  | object members =>
    obtain ⟨sources, isRead, ok⟩ := bind_eq_ok.mp ok
    obtain ⟨_, same, rfl⟩ := members_ofJson.mp isRead
    cases same
    obtain ⟨_, -, returned⟩ := bind_eq_ok.mp ok
    cases returned
    exact ⟨members, ⟨rfl, fun _ listed => lookup_declared listed members⟩, rfl, Or.inl rfl⟩
  | _ => cases ok

/-- An object with distinct keys is read as a record. -/
theorem ofClosed_object (distinct : (OrderedMap.keys members).Nodup) :
    ∃ fields, Fields.ofClosed names .typed (.ofJson (.object members)) = .ok fields ∧
      Declares fields names members ∧ fields.rest = [] :=
  ⟨⟨.typed, _, []⟩, bind_eq_ok.mpr ⟨_, members_ofJson.mpr ⟨members, rfl, rfl⟩,
      bind_eq_ok.mpr ⟨(), checkDistinct_declared distinct, rfl⟩⟩,
    ⟨rfl, fun _ listed => lookup_declared listed members⟩, rfl⟩

end Fields

section Field

variable {α : Type} {read : Reader α} {fields : Fields} {names : List String}
  {members : List (String × Json)} {name : String}
  (declares : Declares fields names members) (listed : name ∈ names)

include declares listed

/-- A field with a default is read from a member, or has its default. -/
theorem Declares.withDefault {value fallback : α} :
    fields.withDefault name fallback read = .ok value ↔
    (OrderedMap.get? members name = none ∧ value = fallback) ∨
      ∃ source, OrderedMap.get? members name = some source ∧ ofJson read source = .ok value := by
  unfold Fields.withDefault
  rw [declares.declared name listed, declares.mode]
  cases found : OrderedMap.get? members name with
  | none => simp [pure, Except.pure, eq_comm]
  | some source => simp [ofJson]

/-- A field that has to be there is read from the member of its name. -/
theorem Declares.required {value : α} :
    fields.required name read = .ok value ↔
      ∃ source, OrderedMap.get? members name = some source ∧ ofJson read source = .ok value := by
  unfold Fields.required
  rw [declares.declared name listed, declares.mode]
  cases found : OrderedMap.get? members name with
  | none => simp [mismatch]
  | some source => simp [ofJson]

end Field

end ServiceForge.Document
