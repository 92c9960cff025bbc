/-
This file proves, for the readers of scalars and collections, that what is written of a value is
read as the same value again and keeps what is kept of the document that the value was read
from. A record does so if each of its fields does.
-/

import ServiceForge.Document.Writer
import ServiceForge.Proofs.Document.Retention

namespace ServiceForge.Document

/-- Whether what is written of a value that `source` reads is read by `target` as the same value,
and keeps what is kept of the document. The readers differ only where one of them is bounded. -/
structure Faithful {α : Type} (source target : Reader α) (write : α → Json) (form : Form) :
    Prop where
  again : ∀ {json value}, ofJson source json = .ok value → ofJson target (write value) = .ok value
  kept : ∀ {json value}, json.isKeyed → ofJson source json = .ok value →
    Retains form json (some (write value))

/-- Whether a value is written as it was read. -/
def Verbatim {α : Type} (read : Reader α) (write : α → Json) : Prop :=
  ∀ {json value}, ofJson read json = .ok value → write value = json

/-- Whether what is not read from null is not written as null. -/
def Solid {α : Type} (read : Reader α) (write : α → Json) : Prop :=
  ∀ {json value}, json.isNull = false → ofJson read json = .ok value → (write value).isNull = false

/-! ### Scalars and free values -/

section Scalars

variable {α : Type} {read : Reader α} {write : α → Json}

/-- What is read as it is written is read faithfully. -/
theorem Verbatim.faithful (verbatim : Verbatim read write) : Faithful read read write .free where
  again ok := by rw [verbatim ok, ok]
  kept _ ok := by
    rw [verbatim ok]
    exact .free _

theorem verbatim_text : Verbatim Reader.text Json.string := fun ok => (text_ofJson.mp ok).symm

theorem verbatim_flag : Verbatim Reader.flag Json.bool := fun ok => (flag_ofJson.mp ok).symm

theorem verbatim_natural : Verbatim Reader.natural Writer.natural :=
  fun ok => (natural_ofJson.mp ok).symm

/-- JSON is read faithfully. -/
theorem faithful_json : Faithful Reader.json Reader.json id .free where
  again ok := json_of_isKeyed (isKeyed_of_read _ ok)
  kept keyed ok := by
    cases ok.symm.trans (json_of_isKeyed keyed)
    exact .free _

theorem solid_json : Solid Reader.json id := by
  intro json value present ok
  cases json with
  | null => cases present
  | array items =>
    rw [json_array] at ok
    obtain ⟨_, -, returned⟩ := bind_eq_ok.mp ok
    cases returned
    rfl
  | object members =>
    rw [json_object] at ok
    obtain ⟨_, -, returned⟩ := bind_eq_ok.mp ok
    cases returned
    rfl
  | _ =>
    cases ok
    rfl

/-- A choice is written by its name. -/
theorem faithful_choice (choices : List α) (name : α → String) :
    Faithful (Reader.choice (choices.map fun choice => (name choice, choice)))
      (Reader.choice (choices.map fun choice => (name choice, choice)))
      (fun choice => .string (name choice)) (.choice (choices.map name)) where
  again {json value} ok := by
    obtain ⟨given, isNamed, -⟩ := choice_ofJson ok
    obtain ⟨rfl, -⟩ := name_of_named isNamed
    exact isNamed
  kept {json value} keyed ok := by
    obtain ⟨given, isNamed, rfl | rfl⟩ := choice_ofJson ok
    · exact .of_isBare rfl
    · obtain ⟨rfl, member⟩ := name_of_named isNamed
      exact .choice (List.mem_map_of_mem member)

end Scalars

/-! ### Collections -/

section Collections

variable {α : Type} {source target : Reader α} {write : α → Json} {form : Form}

/-- Lists are read faithfully if their items are. -/
theorem Faithful.list (faithful : Faithful source target write form) :
    Faithful (Reader.list source) (Reader.list target) (fun values => .array (values.map write))
      (.list form) where
  again {json values} ok := by
    obtain ⟨items, -, each⟩ := list_ofJson.mp ok
    refine list_ofJson.mpr ⟨_, rfl, ?_⟩
    rw [List.mapM_map]
    refine (mapM_eq_ok_map fun value member => ?_).trans (congrArg Except.ok (List.map_id values))
    obtain ⟨item, -, ok⟩ := (mem_mapM each).mp member
    exact faithful.again ok
  kept {json values} keyed ok := by
    obtain ⟨items, rfl, each⟩ := list_ofJson.mp ok
    refine .items fun position item found => ?_
    obtain ⟨value, isValue, ok⟩ := getElem?_mapM each found
    refine ⟨write value, by rw [List.getElem?_map, isValue]; rfl, faithful.kept ?_ ok⟩
    exact (Json.everywhere_array.mp keyed).2 item (List.mem_of_getElem? found)

/-- Maps are read faithfully if their values are. -/
theorem Faithful.map (faithful : Faithful source target write form) :
    Faithful (Reader.map source) (Reader.map target) (fun values => .object (Writer.map write values))
      (.map form) where
  again {json values} ok := by
    obtain ⟨members, entries, rfl, each, rfl⟩ := map_ofJson.mp ok
    have distinct := OrderedMap.nodup_keys_ofEntries entries
    refine map_ofJson.mpr ⟨_, _, rfl, ?_, (OrderedMap.ofEntries_eq_self distinct).symm⟩
    have reread : ∀ entry ∈ OrderedMap.ofEntries entries,
        readMember target (entry.1, write entry.2) = .ok (id entry) := by
      intro entry member
      obtain ⟨source, -, converted⟩ := (mem_mapM each).mp (OrderedMap.mem_of_mem_ofEntries member)
      obtain ⟨value, ok, same⟩ := bind_eq_ok.mp converted
      cases same
      rw [readMember, faithful.again ok]
      rfl
    rw [Writer.map, OrderedMap.mapValues, List.mapM_map]
    exact (mapM_eq_ok_map reread).trans (by rw [List.map_id])
  kept {json values} keyed ok := by
    obtain ⟨members, entries, rfl, each, rfl⟩ := map_ofJson.mp ok
    have keys := keys_of_readMember each
    have distinct := (Json.isKeyed_object.mp keyed).1
    rw [← keys] at distinct
    rw [OrderedMap.ofEntries_eq_self distinct]
    refine .entries ((OrderedMap.keys_mapValues write entries).trans keys) fun name value found => ?_
    obtain ⟨result, isResult, ok⟩ := get?_of_readMember each found
    refine ⟨write result, ?_, faithful.kept ?_ ok⟩
    · rw [Writer.map, OrderedMap.get?_mapValues, isResult]
      rfl
    · exact Json.isKeyed_of_mem keyed (OrderedMap.mem_of_get? found)

/-- An absent value is written as null, which no other value is. -/
theorem Faithful.optional (faithful : Faithful source target write form)
    (solid : Solid source write) :
    Faithful (Reader.optional source) (Reader.optional target)
      (fun value => (value.map write).getD .null) form where
  again {json value} ok := by
    rcases optional_ofJson.mp ok with ⟨-, rfl⟩ | ⟨present, result, isRead, rfl⟩
    · exact optional_ofJson.mpr (Or.inl ⟨rfl, rfl⟩)
    · exact optional_ofJson.mpr
        (Or.inr ⟨solid present isRead, result, faithful.again isRead, rfl⟩)
  kept {json value} keyed ok := by
    rcases optional_ofJson.mp ok with ⟨absent, rfl⟩ | ⟨-, result, isRead, rfl⟩
    · cases json with
      | null => exact .of_isBare rfl
      | _ => cases absent
    · exact faithful.kept keyed isRead

end Collections

/-! ### Records -/

/-- The declared members of a record in order; a member that is not written is empty. -/
abbrev Slots := List (String × Option Json)

namespace Slots

/-- The members that have a value. -/
def members (slots : Slots) : Writer.Members :=
  slots.filterMap fun slot => slot.2.map fun value => (slot.1, value)

/-- An array for a member that is left out if it has no items. -/
def filled (items : List Json) : Option Json := if items.isEmpty then none else some (.array items)

/-- An object for a member that is left out if it has no members. -/
def filledMap (members : Writer.Members) : Option Json :=
  if members.isEmpty then none else some (.object members)

/-- A flag for a member that is left out if it is off. -/
def whenSet (flag : Bool) : Option Json := if flag then some (.bool true) else none

theorem members_append (first second : Slots) :
    members (first ++ second) = members first ++ members second := List.filterMap_append

section Writers

variable {α : Type} (key : String)

theorem present_eq (write : α → Json) (value : Option α) :
    Writer.present key write value = members [(key, value.map write)] := by
  cases value <;> rfl

theorem filled_eq (items : List Json) : Writer.filled key items = members [(key, filled items)] := by
  cases items <;> rfl

theorem filledMap_eq (entries : Writer.Members) :
    Writer.filledMap key entries = members [(key, filledMap entries)] := by
  cases entries <;> rfl

theorem whenSet_eq (flag : Bool) : Writer.whenSet key flag = members [(key, whenSet flag)] := by
  cases flag <;> rfl

theorem written_eq (value : Json) : [(key, value)] = members [(key, some value)] := rfl

theorem cons_members_eq (value : Json) (rest : Slots) :
    (key, value) :: members rest = members ((key, some value) :: rest) := rfl

end Writers

/-- The keys that are written are some of those that may be, in their order. -/
theorem keys_members_sublist (slots : Slots) :
    (OrderedMap.keys slots.members).Sublist (slots.map Prod.fst) := by
  induction slots with
  | nil => exact .slnil
  | cons slot rest inductionHypothesis =>
    obtain ⟨name, content⟩ := slot
    cases content with
    | none => exact inductionHypothesis.cons _
    | some value => exact inductionHypothesis.cons_cons _

/-- Under a key stands the value of its slot, if it has one. -/
theorem get?_members {slots : Slots} (distinct : (slots.map Prod.fst).Nodup) {name : String}
    {slot : Option Json} (found : slots.lookup name = some slot) :
    OrderedMap.get? slots.members name = slot := by
  induction slots with
  | nil => cases found
  | cons first rest inductionHypothesis =>
    obtain ⟨key, content⟩ := first
    obtain ⟨new, distinct⟩ := List.nodup_cons.mp distinct
    have split : OrderedMap.get? (members ((key, content) :: rest)) name =
        if name = key then content.or (OrderedMap.get? (members rest) name)
        else OrderedMap.get? (members rest) name := by
      cases content with
      | none => simp [members]
      | some value => simp [members, OrderedMap.get?_cons]
    have found : OrderedMap.get? ((key, content) :: rest) name = some slot := found
    rw [OrderedMap.get?_cons] at found
    rw [split]
    split at found
    · next same =>
      cases found
      have absent : OrderedMap.get? (members rest) name = none := by
        refine OrderedMap.get?_eq_none.mpr fun present => new ?_
        rw [← same]
        exact (keys_members_sublist rest).subset present
      rw [if_pos same, absent, Option.or_none]
    · next apart =>
      rw [if_neg apart]
      exact inductionHypothesis distinct found

end Slots

/-- The fields of a record as they are read from a document, and as they are read from what is
written of the record. -/
structure Rereads (fields others : Fields) (names : List String)
    (members written : List (String × Json)) (slots : Slots) : Prop where
  before : Declares fields names members
  after : Declares others names written
  listed : ∀ {name slot}, slots.lookup name = some slot → name ∈ names
  slot : ∀ {name slot}, slots.lookup name = some slot → OrderedMap.get? written name = slot

/-- Whether a slot holds what is written of a value. What is read where the slot is empty may be
left out if its document has no parts. -/
inductive Holds {α : Type} (target : Reader α) (write : α → Json) (value fallback : α) :
    Option Json → Prop
  | written : (value = fallback → ofJson target (write value) = .ok value) →
      Holds target write value fallback (some (write value))
  | omitted : value = fallback → isBare (write value) → Holds target write value fallback none

/-- The default alone is left out. -/
theorem Holds.unless {α : Type} {target : Reader α} {write : α → Json} {value fallback : α}
    {isDefault : Bool} (default : isDefault = true ↔ value = fallback)
    (bare : isBare (write fallback)) :
    Holds target write value fallback (if isDefault then none else some (write value)) := by
  split
  · next same =>
    have same := default.mp same
    exact .omitted same (same ▸ bare)
  · next unlike => exact .written fun same => absurd (default.mpr same) unlike

section Fields

variable {α : Type} {source target : Reader α} {write : α → Json} {form : Form}
  {fields others : Fields} {names : List String} {members written : List (String × Json)}
  {slots : Slots} {name : String}

/-- A field that has a default is read again as it was. -/
theorem Rereads.withDefault (rereads : Rereads fields others names members written slots)
    (faithful : Faithful source target write form) {value fallback : α} {slot : Option Json}
    (ok : fields.withDefault name fallback source = .ok value)
    (held : slots.lookup name = some slot) (holds : Holds target write value fallback slot) :
    others.withDefault name fallback target = .ok value ∧
      Keeps form (OrderedMap.get? members name) (OrderedMap.get? written name) := by
  have listed := rereads.listed held
  have isWritten := rereads.slot held
  have isRead := (rereads.before.withDefault listed).mp ok
  constructor
  · refine (rereads.after.withDefault listed).mpr ?_
    rw [isWritten]
    cases holds with
    | omitted same bare => exact Or.inl ⟨rfl, same⟩
    | written again =>
      refine Or.inr ⟨write value, rfl, ?_⟩
      rcases isRead with ⟨-, same⟩ | ⟨json, -, ok⟩
      · exact again same
      · exact faithful.again ok
  · intro json present keyed
    rw [isWritten]
    rcases isRead with ⟨absent, -⟩ | ⟨other, found, ok⟩
    · cases absent.symm.trans present
    · cases found.symm.trans present
      cases holds with
      | omitted same bare => exact (faithful.kept keyed ok).omit bare
      | written again => exact faithful.kept keyed ok

/-- A field that has to be there is read again as it was. -/
theorem Rereads.required (rereads : Rereads fields others names members written slots)
    (faithful : Faithful source target write form) {value : α}
    (ok : fields.required name source = .ok value)
    (held : slots.lookup name = some (some (write value))) :
    others.required name target = .ok value ∧
      Keeps form (OrderedMap.get? members name) (OrderedMap.get? written name) := by
  have listed := rereads.listed held
  have isWritten := rereads.slot held
  obtain ⟨json, found, ok⟩ := (rereads.before.required listed).mp ok
  refine ⟨(rereads.after.required listed).mpr ⟨write value, isWritten, faithful.again ok⟩, ?_⟩
  intro source present keyed
  cases found.symm.trans present
  rw [isWritten]
  exact faithful.kept keyed ok

/-- An optional value is written unless it is absent. -/
theorem Rereads.optional (rereads : Rereads fields others names members written slots)
    (faithful : Faithful source target write form) (solid : Solid source write)
    {value : Option α} (ok : fields.optional name source = .ok value)
    (held : slots.lookup name = some (value.map write)) :
    others.optional name target = .ok value ∧
      Keeps form (OrderedMap.get? members name) (OrderedMap.get? written name) := by
  refine rereads.withDefault (faithful.optional solid) ok held ?_
  cases value with
  | none => exact .omitted rfl rfl
  | some value => exact .written fun impossible => by cases impossible

/-- A list is written unless it is empty. -/
theorem Rereads.list (rereads : Rereads fields others names members written slots)
    (faithful : Faithful source target write form) {values : List α}
    (ok : fields.list name source = .ok values)
    (held : slots.lookup name = some (Slots.filled (values.map write))) :
    others.list name target = .ok values ∧
      Keeps (.list form) (OrderedMap.get? members name) (OrderedMap.get? written name) := by
  refine rereads.withDefault faithful.list ok held ?_
  cases values with
  | nil => exact .omitted rfl rfl
  | cons value rest => exact .written fun impossible => by cases impossible

/-- A map is written unless it is empty. -/
theorem Rereads.map (rereads : Rereads fields others names members written slots)
    (faithful : Faithful source target write form) {values : OrderedMap α}
    (ok : fields.map name source = .ok values)
    (held : slots.lookup name = some (Slots.filledMap (Writer.map write values))) :
    others.map name target = .ok values ∧
      Keeps (.map form) (OrderedMap.get? members name) (OrderedMap.get? written name) := by
  refine rereads.withDefault faithful.map ok held ?_
  cases values with
  | nil => exact .omitted rfl rfl
  | cons value rest => exact .written fun impossible => by cases impossible

/-- A map that is written in any case. -/
theorem Rereads.wholeMap (rereads : Rereads fields others names members written slots)
    (faithful : Faithful source target write form) {values : OrderedMap α}
    (ok : fields.map name source = .ok values)
    (held : slots.lookup name = some (some (.object (Writer.map write values)))) :
    others.map name target = .ok values ∧
      Keeps (.map form) (OrderedMap.get? members name) (OrderedMap.get? written name) :=
  rereads.withDefault faithful.map ok held (.written fun same => by rw [same]; rfl)

/-- A text that may be absent is read again as it was. -/
theorem Rereads.text (rereads : Rereads fields others names members written slots)
    {value : Option String} (ok : fields.optional name Reader.text = .ok value)
    (held : slots.lookup name = some (value.map .string)) :
    others.optional name Reader.text = .ok value ∧
      Keeps .free (OrderedMap.get? members name) (OrderedMap.get? written name) :=
  rereads.optional verbatim_text.faithful (fun _ _ => rfl) ok held

/-- A flag is written if it is set. -/
theorem Rereads.flag (rereads : Rereads fields others names members written slots) {flag : Bool}
    (ok : fields.flag name = .ok flag) (held : slots.lookup name = some (Slots.whenSet flag)) :
    others.flag name = .ok flag ∧
      Keeps .free (OrderedMap.get? members name) (OrderedMap.get? written name) := by
  refine rereads.withDefault verbatim_flag.faithful ok held ?_
  cases flag with
  | false => exact .omitted rfl rfl
  | true => exact .written fun _ => rfl

/-- A flag that is written in any case. -/
theorem Rereads.wholeFlag (rereads : Rereads fields others names members written slots)
    {flag : Bool} (ok : fields.flag name = .ok flag)
    (held : slots.lookup name = some (some (.bool flag))) :
    others.flag name = .ok flag ∧
      Keeps .free (OrderedMap.get? members name) (OrderedMap.get? written name) :=
  rereads.withDefault verbatim_flag.faithful ok held (.written fun _ => rfl)

end Fields

section Records

variable {α : Type} {source target : Fields → Except Error α} {write : α → Json}

/-- What the fields of a record are to show for the record: that what is read from them is read
again from its slots, and that each field keeps what is kept of it. -/
def FieldsFaithful (model : Model) (target : Fields → Except Error α) (fields : Fields)
    (value : α) (slots : Slots) : Prop :=
  ∀ {others members written}, Rereads fields others model.names members written slots →
    others.rest = fields.rest →
      target others = .ok value ∧
        ∀ field ∈ model.fields,
          Keeps field.2 (OrderedMap.get? members field.1) (OrderedMap.get? written field.1)

section Slots

variable {names : List String} {fields : Fields} {members : List (String × Json)} {slots : Slots}
  (distinct : names.Nodup) (named : slots.map Prod.fst = names)

include named

theorem listed_of_lookup {name : String} {slot : Option Json}
    (found : slots.lookup name = some slot) : name ∈ names := by
  rw [← named]
  exact List.mem_map_of_mem (OrderedMap.mem_of_get? found)

theorem name_of_mem_slots {name : String} (held : name ∈ OrderedMap.keys slots.members) :
    name ∈ names := named ▸ (Slots.keys_members_sublist slots).subset held

/-- No written field is an undeclared member. -/
theorem undeclared_slots : undeclared names slots.members = [] := by
  refine List.filter_eq_nil_iff.mpr fun member held => ?_
  have listed := name_of_mem_slots named (List.mem_map_of_mem held)
  simpa using listed

include distinct

/-- The fields and the other members of a record have distinct keys. -/
theorem nodup_keys_record {rest : OrderedMap Json} (isRest : IsRest names rest) :
    (OrderedMap.keys (slots.members ++ rest)).Nodup := by
  rw [OrderedMap.keys, List.map_append]
  refine List.nodup_append.mpr ⟨(Slots.keys_members_sublist slots).nodup (named ▸ distinct),
    (Json.isKeyed_object.mp isRest.keyed).1, fun name early other late same => ?_⟩
  subst same
  exact isRest.apart name late (name_of_mem_slots named early)

/-- The slots of an open record and the rest of its object are read as its fields. -/
theorem exists_rereads_open (splits : Splits fields names members) :
    ∃ others, Fields.ofOpen names .typed (.ofJson (.object (slots.members ++ fields.rest))) =
        .ok others ∧
      Rereads fields others names members (slots.members ++ fields.rest) slots ∧
      others.rest = fields.rest ∧
      undeclared names (slots.members ++ fields.rest) = fields.rest := by
  have rest : undeclared names (slots.members ++ fields.rest) = fields.rest := by
    have own : undeclared names fields.rest = fields.rest :=
      List.filter_eq_self.mpr fun member held => by
        simpa using splits.apart member.1 (List.mem_map_of_mem held)
    rw [undeclared, List.filter_append, ← undeclared, ← undeclared, undeclared_slots named, own,
      List.nil_append]
  have distinctSlots : (slots.map Prod.fst).Nodup := by rwa [named]
  obtain ⟨others, isRead, after, same⟩ :=
    ofOpen_object (nodup_keys_record distinct named splits.toIsRest)
      (by rw [rest]; exact splits.keyed)
  refine ⟨others, isRead, ⟨splits.toDeclares, after, listed_of_lookup named, fun found => ?_⟩,
    same.trans rest, rest⟩
  have absent : OrderedMap.get? fields.rest _ = none :=
    OrderedMap.get?_eq_none.mpr fun held =>
      splits.apart _ held (listed_of_lookup named found)
  rw [OrderedMap.get?_append, Slots.get?_members distinctSlots found, absent, Option.or_none]

/-- The slots of a closed record are read as its fields. -/
theorem exists_rereads_closed (declares : Declares fields names members) :
    ∃ others, Fields.ofClosed names .typed (.ofJson (.object slots.members)) = .ok others ∧
      Rereads fields others names members slots.members slots ∧ others.rest = [] := by
  have distinctSlots : (slots.map Prod.fst).Nodup := by rwa [named]
  obtain ⟨others, isRead, after, noRest⟩ :=
    ofClosed_object ((Slots.keys_members_sublist slots).nodup distinctSlots)
  exact ⟨others, isRead,
    ⟨declares, after, listed_of_lookup named, Slots.get?_members distinctSlots⟩, noRest⟩

end Slots

/-- An open record writes its slots and the rest of the object. -/
theorem Faithful.of_open (model : Model) (slots : α → Slots)
    (named : ∀ value, (slots value).map Prod.fst = model.names)
    (each : ∀ {fields value}, source fields = .ok value →
      write value = .object ((slots value).members ++ fields.rest) ∧
        FieldsFaithful model target fields value (slots value)) :
    Faithful (fun mode value => do source (← Fields.ofOpen model.names mode value))
      (fun mode value => do target (← Fields.ofOpen model.names mode value)) write
      (.record model) where
  again {json value} ok := by
    obtain ⟨fields, isFields, isRead⟩ := bind_eq_ok.mp ok
    obtain ⟨members, rfl, splits⟩ := splits_of_ofOpen isFields
    obtain ⟨isWritten, faithful⟩ := each isRead
    obtain ⟨others, areOthers, rereads, same, -⟩ :=
      exists_rereads_open model.nodup_names (named value) splits
    rw [isWritten]
    exact bind_eq_ok.mpr ⟨others, areOthers, (faithful rereads same).1⟩
  kept {json value} keyed ok := by
    obtain ⟨fields, isFields, isRead⟩ := bind_eq_ok.mp ok
    obtain ⟨members, rfl, splits⟩ := splits_of_ofOpen isFields
    obtain ⟨isWritten, faithful⟩ := each isRead
    obtain ⟨others, -, rereads, same, rest⟩ :=
      exists_rereads_open model.nodup_names (named value) splits
    rw [isWritten]
    exact .record keyed (fun _ => rest.trans (splits.rest keyed)) (faithful rereads same).2

/-- A closed record writes its slots. -/
theorem Faithful.of_closed (model : Model) (slots : α → Slots) (isClosed : model.isOpen = false)
    (named : ∀ value, (slots value).map Prod.fst = model.names)
    (each : ∀ {fields value}, source fields = .ok value →
      write value = .object (slots value).members ∧
        FieldsFaithful model target fields value (slots value)) :
    Faithful (fun mode value => do source (← Fields.ofClosed model.names mode value))
      (fun mode value => do target (← Fields.ofClosed model.names mode value)) write
      (.record model) where
  again {json value} ok := by
    obtain ⟨fields, isFields, isRead⟩ := bind_eq_ok.mp ok
    obtain ⟨members, declares, noRest, -⟩ := declares_of_ofClosed isFields
    obtain ⟨isWritten, faithful⟩ := each isRead
    obtain ⟨others, areOthers, rereads, noOther⟩ :=
      exists_rereads_closed model.nodup_names (named value) declares
    rw [isWritten]
    exact bind_eq_ok.mpr ⟨others, areOthers, (faithful rereads (noOther.trans noRest.symm)).1⟩
  kept {json value} keyed ok := by
    obtain ⟨fields, isFields, isRead⟩ := bind_eq_ok.mp ok
    obtain ⟨members, declares, noRest, given⟩ := declares_of_ofClosed isFields
    obtain ⟨isWritten, faithful⟩ := each isRead
    rcases given with rfl | ⟨items, rfl⟩
    · obtain ⟨others, -, rereads, noOther⟩ :=
        exists_rereads_closed model.nodup_names (named value) declares
      rw [isWritten]
      have notOpen : ¬model.isOpen := by simp [isClosed]
      exact .record keyed (fun isOpen => absurd isOpen notOpen)
        (faithful rereads (noOther.trans noRest.symm)).2
    · refine .of_steps (fun members impossible => by cases impossible) fun step next found => ?_
      cases step with
      | key name => cases found
      | index position => exact .lost

end Records

end ServiceForge.Document
