/-
This file says when what is written of a value is read as the value again, whether the value was
read itself or made in another way. A record is restored if its fields are and if the members
that it does not declare have distinct keys that it does not declare either. The parts of a model
are read from parts of its document, in whatever mode, and free values with distinct keys.
-/

import ServiceForge.Proofs.Document.RoundTrip

namespace ServiceForge.Document

/-- Whether what is written of a value is read as the value again. -/
def Restores {α : Type} (read : Reader α) (write : α → Json) (value : α) : Prop :=
  ofJson read (write value) = .ok value

/-! ### Scalars and collections -/

section Values

variable {α : Type} {read : Reader α} {write : α → Json}

theorem restores_text (value : String) : Restores Reader.text Json.string value := rfl

theorem restores_flag (value : Bool) : Restores Reader.flag Json.bool value := rfl

theorem restores_natural (value : Nat) : Restores Reader.natural Writer.natural value :=
  natural_ofJson.mpr rfl

theorem restores_json {value : Json} (keyed : value.isKeyed = true) :
    Restores Reader.json id value := json_of_isKeyed keyed

/-- A list is read back if each of its items is. -/
theorem restores_list {values : List α} (each : ∀ value ∈ values, Restores read write value) :
    Restores (Reader.list read) (fun values => .array (values.map write)) values := by
  refine list_ofJson.mpr ⟨_, rfl, ?_⟩
  rw [List.mapM_map]
  exact (mapM_eq_ok_map each).trans (congrArg Except.ok (List.map_id values))

/-- A map with distinct keys is read back if each of its values is. -/
theorem restores_map {values : OrderedMap α} (distinct : (OrderedMap.keys values).Nodup)
    (each : ∀ entry ∈ values, Restores read write entry.2) :
    Restores (Reader.map read) (fun values => .object (Writer.map write values)) values := by
  refine map_ofJson.mpr ⟨_, _, rfl, ?_, (OrderedMap.ofEntries_eq_self distinct).symm⟩
  have reread : ∀ entry ∈ values, readMember read (entry.1, write entry.2) = .ok (id entry) := by
    intro entry member
    have again : ofJson read (write entry.2) = .ok entry.2 := each entry member
    rw [readMember, again]
    rfl
  rw [Writer.map, OrderedMap.mapValues, List.mapM_map]
  exact (mapM_eq_ok_map reread).trans (by rw [List.map_id])

end Values

/-! ### Fields -/

/-- Whether the fields of a record are what its slots hold. -/
structure Stored (fields : Fields) (slots : Slots) : Prop where
  mode : fields.mode = .typed
  declared : ∀ {name slot}, slots.lookup name = some slot →
    fields.declared.lookup name = slot.map Value.ofJson

section Fields

variable {α : Type} {read : Reader α} {write : α → Json} {fields : Fields} {slots : Slots}
  (stored : Stored fields slots) {name : String}

include stored

/-- A field that is not written is read as what stands for it. -/
theorem Stored.absent {fallback : α} (held : slots.lookup name = some none) :
    fields.withDefault name fallback read = .ok fallback := by
  rw [Fields.withDefault, stored.declared held]
  rfl

/-- A field that is written is read as its value, whatever would stand for it. -/
theorem Stored.present {value fallback : α} {json : Json}
    (held : slots.lookup name = some (some json)) (isRead : ofJson read json = .ok value) :
    fields.withDefault name fallback read = .ok value := by
  rw [Fields.withDefault, stored.declared held, stored.mode]
  exact isRead

theorem Stored.required {value : α} (held : slots.lookup name = some (some (write value)))
    (restores : Restores read write value) : fields.required name read = .ok value := by
  rw [Fields.required, stored.declared held, stored.mode]
  exact restores

/-- A field that is written unless it has its default is read back. -/
theorem Stored.unless {value fallback : α} {isDefault : Bool}
    (held : slots.lookup name = some (if isDefault then none else some (write value)))
    (default : isDefault = true → value = fallback) (restores : Restores read write value) :
    fields.withDefault name fallback read = .ok value := by
  split at held
  · next same =>
    rw [default same]
    exact stored.absent held
  · exact stored.present held restores

/-- A field that may be absent is read back if its values are never written as null. -/
theorem Stored.optional {value : Option α} (held : slots.lookup name = some (value.map write))
    (restores : ∀ present, value = some present →
      (write present).isNull = false ∧ Restores read write present) :
    fields.optional name read = .ok value := by
  cases value with
  | none => exact stored.absent held
  | some present =>
    obtain ⟨solid, restores⟩ := restores present rfl
    exact stored.present held (optional_ofJson.mpr (Or.inr ⟨solid, present, restores, rfl⟩))

theorem Stored.text {value : Option String} (held : slots.lookup name = some (value.map .string)) :
    fields.optional name Reader.text = .ok value :=
  stored.optional held fun present _ => ⟨rfl, restores_text present⟩

/-- A list that is written unless it is empty is read back. -/
theorem Stored.list {values : List α}
    (held : slots.lookup name = some (Slots.filled (values.map write)))
    (each : ∀ value ∈ values, Restores read write value) :
    fields.list name read = .ok values := by
  cases values with
  | nil => exact stored.absent held
  | cons first rest => exact stored.present held (restores_list each)

/-- A map that is always written is read back. -/
theorem Stored.wholeMap {values : OrderedMap α}
    (held : slots.lookup name = some (some (.object (Writer.map write values))))
    (distinct : (OrderedMap.keys values).Nodup)
    (each : ∀ entry ∈ values, Restores read write entry.2) : fields.map name read = .ok values :=
  stored.present held (restores_map distinct each)

/-- A map that is written unless it is empty is read back. -/
theorem Stored.map {values : OrderedMap α}
    (held : slots.lookup name = some (Slots.filledMap (Writer.map write values)))
    (distinct : (OrderedMap.keys values).Nodup)
    (each : ∀ entry ∈ values, Restores read write entry.2) : fields.map name read = .ok values := by
  cases values with
  | nil => exact stored.absent held
  | cons first rest => exact stored.wholeMap held distinct each

/-- A flag that is written unless it is off is read back. -/
theorem Stored.flag {flag : Bool} (held : slots.lookup name = some (Slots.whenSet flag)) :
    fields.flag name = .ok flag := by
  cases flag with
  | false => exact stored.absent held
  | true => exact stored.present held rfl

end Fields

/-! ### Records -/

theorem isRest_nil (names : List String) : IsRest names [] := ⟨rfl, List.forall_mem_nil _⟩

/-- The slots of a record and the members beside them are read as its fields. -/
theorem exists_stored {names : List String} (distinct : names.Nodup) {slots : Slots}
    (named : slots.map Prod.fst = names) {rest : OrderedMap Json} (isRest : IsRest names rest) :
    ∃ fields, Fields.ofOpen names .typed (.ofJson (.object (slots.members ++ rest))) = .ok fields ∧
      Stored fields slots ∧ fields.rest = rest := by
  have splits : Splits ⟨.typed, [], rest⟩ names rest := by
    refine ⟨⟨rfl, fun name listed => ?_⟩, isRest, fun _ => ?_⟩
    · have absent := OrderedMap.get?_eq_none.mpr fun held => isRest.apart name held listed
      rw [absent]
      rfl
    · refine (List.filter_eq_self.mpr fun member held => ?_).symm
      simpa using isRest.apart member.1 (List.mem_map_of_mem held)
  obtain ⟨fields, areFields, rereads, same, -⟩ := exists_rereads_open distinct named splits
  refine ⟨fields, areFields, ⟨rereads.after.mode, fun held => ?_⟩, same⟩
  rw [rereads.after.declared _ (rereads.listed held), rereads.slot held]

/-- A record is restored if it is read from its slots. -/
theorem Restores.of_open {α : Type} {names : List String} (distinct : names.Nodup)
    {build : Fields → Except Error α} {write : α → Json} {value : α} {slots : Slots}
    {rest : OrderedMap Json} (written : write value = .object (slots.members ++ rest))
    (named : slots.map Prod.fst = names) (isRest : IsRest names rest)
    (isBuilt : ∀ {fields}, Stored fields slots → fields.rest = rest → build fields = .ok value) :
    Restores (fun mode value => do build (← Fields.ofOpen names mode value)) write value := by
  obtain ⟨fields, areFields, stored, same⟩ := exists_stored distinct named isRest
  rw [Restores, written]
  exact bind_eq_ok.mpr ⟨fields, areFields, isBuilt stored same⟩

/-! ### Parts of values -/

/-- Whether what holds of a value holds of what stands in it. -/
structure Inherits (P : Mode → Value → Prop) : Prop where
  items : ∀ {mode value items}, P mode value → Reader.items mode value = .ok items →
    ∀ item ∈ items, P mode item
  members : ∀ {mode value members}, P mode value → Reader.members mode value = .ok members →
    ∀ member ∈ members, P mode member.2
  typed : ∀ {mode value}, P mode value → P .typed value

theorem inherits_any : Inherits fun _ _ => True :=
  ⟨fun _ _ _ _ => trivial, fun _ _ _ _ => trivial, fun _ => trivial⟩

/-- Whether a value is that of a JSON document. -/
def IsJson (mode : Mode) (value : Value) : Prop := mode = .typed ∧ ∃ json, value = .ofJson json

theorem isJson_ofJson (json : Json) : IsJson .typed (.ofJson json) := ⟨rfl, json, rfl⟩

/-- The parts of a JSON value are JSON values. -/
theorem inherits_isJson : Inherits IsJson where
  items := by
    rintro _ _ items ⟨rfl, json, rfl⟩ ok item member
    obtain ⟨items, -, rfl⟩ := items_ofJson ok
    obtain ⟨source, -, rfl⟩ := List.mem_map.mp member
    exact isJson_ofJson source
  members := by
    rintro _ _ members ⟨rfl, json, rfl⟩ ok member held
    obtain ⟨members, -, rfl⟩ := members_ofJson.mp ok
    obtain ⟨source, -, rfl⟩ := List.mem_map.mp held
    exact isJson_ofJson source.2
  typed := by
    rintro _ _ ⟨-, json, rfl⟩
    exact isJson_ofJson json

/-! ### Parts of models -/

/-- Whether a part is read from a value with the given property. -/
def Found {β : Type} (P : Mode → Value → Prop) (read : Reader β) (part : β) : Prop :=
  ∃ mode value, P mode value ∧ read mode value = .ok part

/-- Whether the parts of what is read are read themselves. -/
def Gathers {α β : Type} (P : Mode → Value → Prop) (read : Reader α) (parts : α → List β)
    (readPart : Reader β) : Prop :=
  ∀ mode value result, P mode value → read mode value = .ok result →
    ∀ part ∈ parts result, Found P readPart part

section Gathers

variable {α β : Type} {P : Mode → Value → Prop} {read : Reader α} {parts : α → List β}
  {readPart : Reader β}

theorem Gathers.self (P : Mode → Value → Prop) (read : Reader α) :
    Gathers P read (fun result => [result]) read := by
  intro mode value result own ok part member
  obtain rfl := List.mem_singleton.mp member
  exact ⟨mode, value, own, ok⟩

variable (gathers : Gathers P read parts readPart)

include gathers

theorem Gathers.optional :
    Gathers P (Reader.optional read) (fun result => result.toList.flatMap parts) readPart := by
  intro mode value result own ok part member
  obtain ⟨absent, -, ok⟩ := bind_eq_ok.mp ok
  split at ok
  · cases ok
    cases member
  · obtain ⟨present, isRead, returned⟩ := bind_eq_ok.mp ok
    cases returned
    exact gathers mode value present own isRead part (by simpa using member)

/-- What is found in a list is found in one of its items. -/
theorem Gathers.list (inherits : Inherits P) :
    Gathers P (Reader.list read) (fun results => results.flatMap parts) readPart := by
  intro mode value results own ok part member
  obtain ⟨items, areItems, each⟩ := bind_eq_ok.mp ok
  obtain ⟨result, isResult, inside⟩ := List.mem_flatMap.mp member
  obtain ⟨item, isItem, isRead⟩ := (mem_mapM each).mp isResult
  exact gathers mode item result (inherits.items own areItems item isItem) isRead part inside

/-- What is found in a map is found in one of its values. -/
theorem Gathers.map (inherits : Inherits P) :
    Gathers P (Reader.map read) (fun results => results.values.flatMap parts) readPart := by
  intro mode value results own ok part member
  obtain ⟨members, areMembers, ok⟩ := bind_eq_ok.mp ok
  obtain ⟨entries, each, returned⟩ := bind_eq_ok.mp ok
  cases returned
  obtain ⟨result, isResult, inside⟩ := List.mem_flatMap.mp member
  obtain ⟨entry, isEntry, rfl⟩ := List.mem_map.mp isResult
  obtain ⟨source, isSource, converted⟩ :=
    (mem_mapM each).mp (OrderedMap.mem_of_mem_ofEntries isEntry)
  obtain ⟨result, isRead, same⟩ := bind_eq_ok.mp converted
  cases same
  exact gathers mode source.2 result (inherits.members own areMembers source isSource) isRead part
    inside

end Gathers

/-! ### Fields -/

/-- Whether the fields of a record are values with the given property. -/
def Owned (P : Mode → Value → Prop) (fields : Fields) : Prop :=
  ∀ member ∈ fields.declared, P fields.mode member.2

section Fields

variable {α β : Type} {P : Mode → Value → Prop} {read : Reader α} {parts : α → List β}
  {readPart : Reader β} {fields : Fields} {name : String}

/-- A field with a default is read from its value, or has its default. -/
theorem read_of_withDefault (owned : Owned P fields) {value fallback : α}
    (ok : fields.withDefault name fallback read = .ok value) :
    value = fallback ∨ Found P read value := by
  unfold Fields.withDefault at ok
  split at ok
  · next source found => exact Or.inr ⟨_, source, owned _ (OrderedMap.mem_of_get? found), ok⟩
  · cases ok
    exact Or.inl rfl

theorem read_of_required (owned : Owned P fields) {value : α}
    (ok : fields.required name read = .ok value) : Found P read value := by
  unfold Fields.required at ok
  split at ok
  · next source found => exact ⟨_, source, owned _ (OrderedMap.mem_of_get? found), ok⟩
  · cases ok

/-- What is found in a field is found in its value if its default has nothing of it. -/
theorem Gathers.withDefault (gathers : Gathers P read parts readPart) (owned : Owned P fields)
    {value fallback : α} (empty : parts fallback = [])
    (ok : fields.withDefault name fallback read = .ok value) :
    ∀ part ∈ parts value, Found P readPart part := by
  rcases read_of_withDefault owned ok with rfl | ⟨mode, source, own, isRead⟩
  · rw [empty]
    exact List.forall_mem_nil _
  · exact gathers mode source value own isRead

/-- The fields of a value that may have others inherit what holds of the value. -/
theorem owned_of_ofOpen (inherits : Inherits P) {names : List String} {mode : Mode} {value : Value}
    (own : P mode value) (ok : Fields.ofOpen names mode value = .ok fields) : Owned P fields := by
  obtain ⟨members, areMembers, ok⟩ := bind_eq_ok.mp ok
  obtain ⟨_, -, ok⟩ := bind_eq_ok.mp ok
  obtain ⟨rest, -, returned⟩ := bind_eq_ok.mp ok
  cases returned
  exact fun member held => inherits.members own areMembers member (List.mem_filter.mp held).1

/-- What is found in a record is found in a field, if each field is read from the value. -/
theorem Gathers.of_open {names : List String} {build : Fields → Except Error α}
    (inherits : Inherits P)
    (each : ∀ {fields value}, Owned P fields → build fields = .ok value →
      ∀ part ∈ parts value, Found P readPart part) :
    Gathers P (fun mode value => do build (← Fields.ofOpen names mode value)) parts readPart := by
  intro mode value result own ok
  obtain ⟨fields, areFields, isRead⟩ := bind_eq_ok.mp ok
  exact each (owned_of_ofOpen inherits own areFields) isRead

end Fields

/-! ### Maps -/

/-- A map that was read has distinct keys. -/
theorem nodup_of_map {α : Type} {read : Reader α} {mode : Mode} {value : Value}
    {results : OrderedMap α} (ok : Reader.map read mode value = .ok results) :
    (OrderedMap.keys results).Nodup := by
  obtain ⟨members, -, ok⟩ := bind_eq_ok.mp ok
  obtain ⟨entries, -, returned⟩ := bind_eq_ok.mp ok
  cases returned
  exact OrderedMap.nodup_keys_ofEntries entries

end ServiceForge.Document
