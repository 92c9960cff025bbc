/-
This file holds maps that keep the order in which their keys were first
inserted. Two maps agree when they have the same entries in any order.
-/

namespace ServiceForge

/-- Entries with distinct keys, in insertion order. -/
abbrev OrderedMap (α : Type) := List (String × α)

namespace OrderedMap

variable {α β : Type}

/-- The value of a key, which is that of its first entry. -/
def get? (map : OrderedMap α) (key : String) : Option α := List.lookup key map

/-- Whether a key has a value. -/
def contains (map : OrderedMap α) (key : String) : Bool := (get? map key).isSome

/-- The keys of a map, in its order. -/
def keys (map : OrderedMap α) : List String := map.map Prod.fst

/-- The values of a map, in its order. -/
def values (map : OrderedMap α) : List α := map.map Prod.snd

/-- Replaces the value of a key in its place, or appends a new entry. -/
def insert (map : OrderedMap α) (key : String) (value : α) : OrderedMap α :=
  match map with
  | [] => [(key, value)]
  | (present, old) :: rest =>
    if present = key then (key, value) :: rest else (present, old) :: insert rest key value

/-- Inserts an entry only if its key is new. -/
def insertNew (map : OrderedMap α) (key : String) (value : α) : OrderedMap α :=
  if contains map key then map else map ++ [(key, value)]

/-- A repeated key keeps its first place and its last value. -/
def ofEntries (entries : List (String × α)) : OrderedMap α :=
  entries.foldl (fun map entry => insert map entry.1 entry.2) []

/-- Transforms the values of a map. Their keys and order stay. -/
def mapValues (transform : α → β) (map : OrderedMap α) : OrderedMap β :=
  map.map fun entry => (entry.1, transform entry.2)

/-! ### Entries and keys -/

@[simp] theorem get?_nil (key : String) : get? ([] : OrderedMap α) key = none := rfl

theorem get?_cons (entry : String × α) (map : OrderedMap α) (key : String) :
    get? (entry :: map) key = if key = entry.1 then some entry.2 else get? map key := by
  obtain ⟨present, value⟩ := entry
  by_cases same : key = present
  · simp [get?, same]
  · have different : (key == present) = false := by simpa using same
    simp [get?, List.lookup_cons, same, different]

theorem isSome_get? (map : OrderedMap α) (key : String) :
    (get? map key).isSome = true ↔ key ∈ keys map := by
  induction map with
  | nil => simp [keys]
  | cons entry rest inductionHypothesis =>
    rw [get?_cons]
    by_cases same : key = entry.1
    · simp [keys, same]
    · simpa [keys, same] using inductionHypothesis

theorem get?_insert (map : OrderedMap α) (key : String) (value : α) (other : String) :
    get? (insert map key value) other = if other = key then some value else get? map other := by
  induction map with
  | nil => simp [insert, get?_cons]
  | cons entry rest inductionHypothesis =>
    obtain ⟨present, old⟩ := entry
    by_cases same : present = key
    · subst same
      by_cases hit : other = present <;> simp [insert, get?_cons, hit]
    · by_cases hit : other = present
      · subst hit
        simp [insert, get?_cons, same]
      · simp [insert, get?_cons, same, hit, inductionHypothesis]

theorem get?_eq_none {map : OrderedMap α} {key : String} :
    get? map key = none ↔ key ∉ keys map := by
  rw [← isSome_get?, Option.not_isSome_iff_eq_none]

theorem mem_of_get? {map : OrderedMap α} {key : String} {value : α}
    (found : get? map key = some value) : (key, value) ∈ map := by
  obtain ⟨before, after, whole, -⟩ := List.lookup_eq_some_iff.mp found
  rw [whole]
  exact List.mem_append_right _ List.mem_cons_self

theorem mem_keys_of_get? {map : OrderedMap α} {key : String} {value : α}
    (found : get? map key = some value) : key ∈ keys map :=
  (isSome_get? map key).mp (Option.isSome_iff_exists.mpr ⟨value, found⟩)

theorem get?_of_mem {map : OrderedMap α} {key : String} {value : α} (distinct : (keys map).Nodup)
    (member : (key, value) ∈ map) : get? map key = some value := by
  induction map with
  | nil => cases member
  | cons entry rest inductionHypothesis =>
    obtain ⟨new, distinct⟩ := List.nodup_cons.mp distinct
    rw [get?_cons]
    rcases List.mem_cons.mp member with rfl | later
    · exact if_pos rfl
    · have apart : key ≠ entry.1 := by
        rintro rfl
        exact new (List.mem_map.mpr ⟨_, later, rfl⟩)
      rw [if_neg apart]
      exact inductionHypothesis distinct later

theorem get?_append (map more : OrderedMap α) (key : String) :
    get? (map ++ more) key = (get? map key).or (get? more key) := List.lookup_append

@[simp] theorem keys_mapValues (transform : α → β) (map : OrderedMap α) :
    keys (mapValues transform map) = keys map := by
  simp [keys, mapValues]

theorem get?_mapValues (transform : α → β) (map : OrderedMap α) (key : String) :
    get? (mapValues transform map) key = (get? map key).map transform := by
  induction map with
  | nil => rfl
  | cons entry rest inductionHypothesis =>
    rw [mapValues, List.map_cons, ← mapValues, get?_cons, get?_cons, inductionHypothesis]
    split <;> rfl

/-- The order of entries with distinct keys does not matter to what a key leads to. -/
theorem get?_perm {map other : OrderedMap α} (same : List.Perm map other)
    (distinct : (keys map).Nodup) (key : String) : get? map key = get? other key := by
  have distinctOther : (keys other).Nodup := (same.map Prod.fst).nodup distinct
  cases found : get? map key with
  | some value => exact (get?_of_mem distinctOther (same.mem_iff.mp (mem_of_get? found))).symm
  | none =>
    refine (get?_eq_none.mpr fun present => ?_).symm
    exact get?_eq_none.mp found ((same.map Prod.fst).mem_iff.mpr present)

/-- A new key comes last. -/
theorem insert_of_notMem {map : OrderedMap α} {key : String} (value : α) (new : key ∉ keys map) :
    insert map key value = map ++ [(key, value)] := by
  induction map with
  | nil => rfl
  | cons entry rest inductionHypothesis =>
    obtain ⟨present, old⟩ := entry
    have apart : present ≠ key ∧ key ∉ keys rest := by
      simpa [keys, eq_comm] using new
    rw [insert, if_neg apart.1, inductionHypothesis apart.2, List.cons_append]

/-- A present key keeps its place. -/
theorem keys_insert_of_mem {map : OrderedMap α} {key : String} (value : α) (old : key ∈ keys map) :
    keys (insert map key value) = keys map := by
  induction map with
  | nil => cases old
  | cons entry rest inductionHypothesis =>
    obtain ⟨present, before⟩ := entry
    by_cases same : present = key
    · simp [insert, keys, same]
    · have later : key ∈ keys rest := (List.mem_cons.mp old).resolve_left (Ne.symm same)
      have unchanged : (insert rest key value).map Prod.fst = rest.map Prod.fst :=
        inductionHypothesis later
      simp [insert, keys, same, unchanged]

theorem nodup_keys_insert {map : OrderedMap α} (distinct : (keys map).Nodup) (key : String)
    (value : α) : (keys (insert map key value)).Nodup := by
  by_cases old : key ∈ keys map
  · rw [keys_insert_of_mem value old]
    exact distinct
  · rw [insert_of_notMem value old, keys, List.map_append]
    exact List.nodup_append.mpr ⟨distinct, List.nodup_cons.mpr ⟨List.not_mem_nil, List.nodup_nil⟩,
      fun present member other last same => old <| by
        rw [← show other = key from List.mem_singleton.mp last, ← same]
        exact member⟩

theorem mem_keys_insert {map : OrderedMap α} {key name : String} {value : α} :
    name ∈ keys (insert map key value) ↔ name = key ∨ name ∈ keys map := by
  rw [← isSome_get?, get?_insert, ← isSome_get? map]
  by_cases same : name = key <;> simp [same]

theorem mem_of_mem_insert {map : OrderedMap α} {key : String} {value : α} {entry : String × α}
    (member : entry ∈ insert map key value) : entry = (key, value) ∨ entry ∈ map := by
  induction map with
  | nil => exact Or.inl (List.mem_singleton.mp member)
  | cons first rest inductionHypothesis =>
    obtain ⟨present, old⟩ := first
    rw [insert] at member
    split at member
    · exact (List.mem_cons.mp member).imp_right (List.mem_cons_of_mem _)
    · rcases List.mem_cons.mp member with rfl | later
      · exact Or.inr List.mem_cons_self
      · exact (inductionHypothesis later).imp_right (List.mem_cons_of_mem _)

/-! ### Maps from entries -/

theorem nodup_keys_insertAll {map : OrderedMap α} (distinct : (keys map).Nodup)
    (entries : List (String × α)) :
    (keys (entries.foldl (fun map entry => insert map entry.1 entry.2) map)).Nodup := by
  induction entries generalizing map with
  | nil => exact distinct
  | cons entry rest inductionHypothesis =>
    exact inductionHypothesis (nodup_keys_insert distinct entry.1 entry.2)

theorem nodup_keys_ofEntries (entries : List (String × α)) : (keys (ofEntries entries)).Nodup :=
  nodup_keys_insertAll (show (keys []).Nodup from List.nodup_nil) entries

theorem insertAll_eq_append {map : OrderedMap α} {entries : List (String × α)}
    (distinct : (keys (map ++ entries)).Nodup) :
    entries.foldl (fun map entry => insert map entry.1 entry.2) map = map ++ entries := by
  induction entries generalizing map with
  | nil => exact (List.append_nil map).symm
  | cons entry rest inductionHypothesis =>
    have new : entry.1 ∉ keys map := by
      rw [keys, List.map_append, List.map_cons] at distinct
      exact fun old => (List.nodup_append.mp distinct).2.2 _ old _ List.mem_cons_self rfl
    rw [List.append_cons] at distinct ⊢
    rw [List.foldl_cons, insert_of_notMem _ new]
    exact inductionHypothesis distinct

/-- Entries with distinct keys are the map that they make. -/
theorem ofEntries_eq_self {entries : List (String × α)} (distinct : (keys entries).Nodup) :
    ofEntries entries = entries :=
  insertAll_eq_append (show (keys ([] ++ entries)).Nodup from distinct)

/-- What is in a map after entries were inserted. -/
theorem mem_of_mem_insertAll {map : OrderedMap α} {entries : List (String × α)}
    {entry : String × α}
    (member : entry ∈ entries.foldl (fun map entry => insert map entry.1 entry.2) map) :
    entry ∈ map ∨ entry ∈ entries := by
  induction entries generalizing map with
  | nil => exact Or.inl member
  | cons first rest inductionHypothesis =>
    rcases inductionHypothesis member with early | later
    · rcases mem_of_mem_insert early with rfl | old
      · exact Or.inr List.mem_cons_self
      · exact Or.inl old
    · exact Or.inr (List.mem_cons_of_mem _ later)

theorem mem_of_mem_ofEntries {entries : List (String × α)} {entry : String × α}
    (member : entry ∈ ofEntries entries) : entry ∈ entries :=
  (mem_of_mem_insertAll member).resolve_left List.not_mem_nil

theorem mem_keys_ofEntries {entries : List (String × α)} {name : String}
    (member : name ∈ keys entries) : name ∈ keys (ofEntries entries) := by
  have inserted : ∀ map : OrderedMap α, name ∈ keys map ∨ name ∈ keys entries →
      name ∈ keys (entries.foldl (fun map entry => insert map entry.1 entry.2) map) := by
    clear member
    induction entries with
    | nil => exact fun _ held => held.resolve_right List.not_mem_nil
    | cons first rest inductionHypothesis =>
      rintro map (early | listed)
      · exact inductionHypothesis _ (Or.inl (mem_keys_insert.mpr (Or.inr early)))
      · rcases List.mem_cons.mp listed with same | later
        · exact inductionHypothesis _ (Or.inl (mem_keys_insert.mpr (Or.inl same)))
        · exact inductionHypothesis _ (Or.inr later)
  exact inserted [] (Or.inr member)

end OrderedMap

end ServiceForge
