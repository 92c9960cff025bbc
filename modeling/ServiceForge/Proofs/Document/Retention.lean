/-
This file says what a model keeps of a JSON document beside what it declares. A model
declares the keys of its objects and what stands under them. The other members of an object
are kept as they are by an open model and lost by a closed one. What is kept of an object
stands in the written document at the same place, with the same values and in the same order.
-/

import ServiceForge.Descriptor.Document
import ServiceForge.Metadata.Document
import ServiceForge.OpenApi.Spec.Document
import ServiceForge.Proofs.Document.Reading
import ServiceForge.Proofs.Reference.Walk
import ServiceForge.Route.Document

namespace ServiceForge.Document

open ServiceForge.OpenApi (Location Method)
open ServiceForge.OpenApi.Reference (Step)

/-! ### What models declare -/

/-- The models of objects with declared keys. -/
inductive Model where
  | schema
  | media
  | parameter
  | header
  | response
  | requestBody
  | operation
  | pathItem
  | components
  | spec
  | targetParameters
  | operationEntry
  | resourceEntry
  | metadata
  | describedAttribute
  | descriptor
  | route
  | routeMap
deriving DecidableEq

/-- What is declared at a place of a document. -/
inductive Form where
  /-- Any value, which is kept as it is. -/
  | free
  | choice (names : List String)
  | list (each : Form)
  | map (each : Form)
  | record (model : Model)
  /-- A part of a document that no model keeps. -/
  | lost

namespace Model

/-- The keys that a model is read from, with what stands under them, in the order in which they are
written. -/
def fields : Model → List (String × Form)
  | schema =>
    [("$ref", .free), ("type", .free), ("format", .free), ("title", .free), ("description", .free),
      ("default", .free), ("items", .record schema), ("properties", .map (.record schema)),
      ("required", .list .free), ("nullable", .free), ("additionalProperties", .record schema),
      ("oneOf", .list (.record schema)), ("anyOf", .list (.record schema)),
      ("allOf", .list (.record schema)), ("enum", .list .free), ("pattern", .free), ("maxLength", .free),
      ("minLength", .free), ("readOnly", .free)]
  | media => [("schema", .record schema)]
  | parameter =>
    [("name", .free), ("in", .choice (Location.all.map Location.name)), ("description", .free),
      ("required", .free), ("style", .free), ("explode", .free), ("schema", .record schema)]
  | header => [("description", .free), ("schema", .record schema)]
  | response =>
    [("description", .free), ("headers", .map (.record header)),
      ("content", .map (.record media))]
  | requestBody => [("description", .free), ("content", .map (.record media)), ("required", .free)]
  | operation =>
    [("operationId", .free), ("summary", .free), ("description", .free), ("tags", .list .free),
      ("parameters", .list (.record parameter)), ("requestBody", .record requestBody),
      ("responses", .map (.record response))]
  | pathItem =>
    ("parameters", .list (.record parameter)) ::
      Method.all.map fun method => (method.name, .record operation)
  | components =>
    [("schemas", .map (.record schema)), ("parameters", .map (.record parameter)),
      ("headers", .map (.record header))]
  | spec =>
    [("openapi", .free), ("info", .free), ("paths", .map (.record pathItem)),
      ("components", .record components)]
  | targetParameters =>
    [("operation_type", .free), ("module_path", .free), ("module_name", .free),
      ("request_key", .free), ("response_key", .free), ("response_list_item_key", .free),
      ("operation_name", .free), ("list_operation_id", .free)]
  | operationEntry =>
    [("operation_id", .free), ("spec_file", .free), ("operation_type", .free),
      ("targets", .map (.record targetParameters))]
  | resourceEntry =>
    [("spec_file", .free), ("api_version", .free), ("operations", .map (.record operationEntry)),
      ("extensions", .map .free)]
  | metadata => [("resources", .map (.record resourceEntry))]
  | describedAttribute =>
    [("type", .choice (Descriptor.AttributeType.all.map Descriptor.AttributeType.name)),
      ("format", .free), ("doc", .free), ("required", .free)]
  | descriptor =>
    [("name", .free), ("doc", .free), ("resource_key", .free), ("resources_key", .free),
      ("attributes", .map (.record describedAttribute)), ("allow_list", .free),
      ("allow_fetch", .free), ("allow_create", .free), ("allow_delete", .free),
      ("allow_commit", .free)]
  | route =>
    [("path", .free), ("method", .choice (Method.all.map Method.name)), ("action", .free),
      ("action_name", .free), ("request_schema", .record schema),
      ("response_schema", .record schema), ("min_version", .free), ("max_version", .free),
      ("status", .free)]
  | routeMap =>
    [("service_type", .free), ("version", .free), ("routes", .list (.record route))]

/-- The names of the fields of a model. -/
def names (model : Model) : List String := model.fields.map Prod.fst

/-- Whether a model keeps the members of an object that it does not declare. -/
def isOpen : Model → Bool
  | operationEntry | resourceEntry | metadata | describedAttribute | descriptor | route
  | routeMap => false
  | _ => true

theorem nodup_names (model : Model) : model.names.Nodup := by
  cases model <;> decide

end Model

namespace Form

/-- What stands under a key of an object or at a position of an array. A closed record may also be
given by position; then its parts have no place in what is written. -/
def step : Form → Step → Form
  | free, _ | choice _, _ => free
  | list each, _ | map each, _ => each
  | record model, .key name =>
    (model.fields.lookup name).getD (if model.isOpen then free else lost)
  | record _, .index _ | lost, _ => lost

/-- What stands at the end of a path. -/
def along (form : Form) (path : List Step) : Form := path.foldl step form

/-- What is kept of an object: the members that are not declared, with their values, and the keys
of a map, whose values are declared. -/
def retained (form : Form) (members : List (String × Json)) : List (String × Option Json) :=
  match form with
  | free | list _ => OrderedMap.mapValues some members
  | choice names => OrderedMap.mapValues some (undeclared names members)
  | map _ => members.map fun member => (member.1, none)
  | record model =>
    if model.isOpen then OrderedMap.mapValues some (undeclared model.names members) else []
  | lost => []

@[simp] theorem retained_nil (form : Form) : form.retained [] = [] := by
  cases form with
  | record model => exact ite_self []
  | _ => rfl

end Form

/-! ### Places -/

/-- The part of a collection that a step leads to. -/
def part? : Json → Step → Option Json
  | .object members, .key name => OrderedMap.get? members name
  | .array items, .index position => items[position]?
  | _, _ => none

/-- The part of a document at the end of a path. -/
def place? (document : Json) : List Step → Option Json
  | [] => some document
  | step :: path => (part? document step).bind (place? · path)

/-- Whether what is kept of each object of a document stands at its place in what is written. -/
def Retains (form : Form) (source : Json) (written : Option Json) : Prop :=
  ∀ path members, place? source path = some (.object members) →
    (form.along path).retained members ≠ [] →
      ∃ others, written.bind (place? · path) = some (.object others) ∧
        (form.along path).retained others = (form.along path).retained members

section Retains

variable {form : Form} {source : Json} {written : Option Json}

/-- What is kept stands at its place if it does so here and from each step on. -/
theorem Retains.of_steps
    (here : ∀ members, source = .object members → form.retained members ≠ [] →
      ∃ others, written = some (.object others) ∧ form.retained others = form.retained members)
    (there : ∀ step next, part? source step = some next →
      Retains (form.step step) next (written.bind (part? · step))) :
    Retains form source written := by
  intro path members found keeps
  cases path with
  | nil =>
    obtain ⟨others, isWritten, same⟩ := here members (Option.some.inj found) keeps
    exact ⟨others, by rw [isWritten]; rfl, same⟩
  | cons step path =>
    obtain ⟨next, isNext, found⟩ := Option.bind_eq_some_iff.mp found
    obtain ⟨others, isWritten, same⟩ := there step next isNext path members found keeps
    exact ⟨others, by rw [← isWritten, Option.bind_assoc]; rfl, same⟩

theorem along_lost (path : List Step) : Form.along .lost path = .lost := by
  induction path with
  | nil => rfl
  | cons step path inductionHypothesis => exact inductionHypothesis

/-- A free value is kept as it is. -/
theorem Retains.free (source : Json) : Retains .free source (some source) := by
  intro path members found _
  exact ⟨members, found, rfl⟩

theorem Retains.lost : Retains .lost source written := by
  intro path members _ keeps
  rw [along_lost] at keeps
  exact absurd rfl keeps

/-- Whether a document has no parts. -/
def isBare : Json → Bool
  | .object members => members.isEmpty
  | .array items => items.isEmpty
  | _ => true

theorem part?_of_isBare {document : Json} (bare : isBare document) (step : Step) :
    part? document step = none := by
  cases document with
  | object members =>
    rw [List.isEmpty_iff.mp bare]
    cases step <;> rfl
  | array items =>
    rw [List.isEmpty_iff.mp bare]
    cases step <;> rfl
  | _ => cases step <;> rfl

/-- There is nothing to keep of a document without parts. -/
theorem Retains.of_isBare (bare : isBare source) : Retains form source written := by
  refine .of_steps (fun members same keeps => ?_) fun step next found => ?_
  · rw [same] at bare
    rw [List.isEmpty_iff.mp bare] at keeps
    exact absurd (Form.retained_nil form) keeps
  · rw [part?_of_isBare bare] at found
    cases found

/-- A document without parts may as well not be written. -/
theorem Retains.omit {document : Json} (bare : isBare document)
    (retains : Retains form source (some document)) : Retains form source none := by
  intro path members found keeps
  obtain ⟨others, isWritten, same⟩ := retains path members found keeps
  cases path with
  | nil =>
    cases isWritten
    rw [List.isEmpty_iff.mp bare, Form.retained_nil] at same
    exact absurd same.symm keeps
  | cons step path =>
    rw [Option.bind_some, place?, part?_of_isBare bare] at isWritten
    cases isWritten

/-- The name of a choice is kept wherever it stands. -/
theorem Retains.choice {names : List String} {name : String} (listed : name ∈ names) :
    Retains (.choice names) (.object [(name, .null)]) written := by
  refine .of_steps (fun members same keeps => ?_) fun step next found => ?_
  · cases same
    exact absurd (by simp [Form.retained, undeclared, OrderedMap.mapValues, listed]) keeps
  · cases step with
    | index position => cases found
    | key key =>
      have isNull : next = .null :=
        congrArg Prod.snd (List.mem_singleton.mp (OrderedMap.mem_of_get? found))
      rw [isNull]
      exact .of_isBare rfl

/-! ### Collections -/

theorem Retains.items {each : Form} {items others : List Json}
    (same : ∀ (position : Nat) item, items[position]? = some item →
      ∃ other, others[position]? = some other ∧ Retains each item (some other)) :
    Retains (.list each) (.array items) (some (.array others)) := by
  refine .of_steps (fun members impossible => by cases impossible) fun step next found => ?_
  cases step with
  | key name => cases found
  | index position =>
    obtain ⟨other, isOther, retains⟩ := same position next found
    rw [Option.bind_some, part?, isOther]
    exact retains

theorem Retains.entries {each : Form} {members others : List (String × Json)}
    (keys : OrderedMap.keys others = OrderedMap.keys members)
    (same : ∀ name value, OrderedMap.get? members name = some value →
      ∃ other, OrderedMap.get? others name = some other ∧ Retains each value (some other)) :
    Retains (.map each) (.object members) (some (.object others)) := by
  refine .of_steps (fun members isSource _ => ?_) fun step next found => ?_
  · cases isSource
    have named (map : List (String × Json)) :
        Form.retained (.map each) map = (OrderedMap.keys map).map (·, none) := by
      simp [Form.retained, OrderedMap.keys]
    exact ⟨others, rfl, by rw [named, named, keys]⟩
  · cases step with
    | index position => cases found
    | key name =>
      obtain ⟨other, isOther, retains⟩ := same name next found
      rw [Option.bind_some, part?, isOther]
      exact retains

end Retains

/-! ### Records -/

/-- Whether what is kept of a member, if there is one, stands in what is written for it. -/
def Keeps (form : Form) (before after : Option Json) : Prop :=
  ∀ source, before = some source → source.isKeyed → Retains form source after

/-- A record keeps what its fields keep and, if it is open, what is not declared. -/
theorem Retains.record {model : Model} {members written : List (String × Json)}
    (keyed : Json.isKeyed (.object members))
    (rest : model.isOpen → undeclared model.names written = undeclared model.names members)
    (each : ∀ field ∈ model.fields,
      Keeps field.2 (OrderedMap.get? members field.1) (OrderedMap.get? written field.1)) :
    Retains (.record model) (.object members) (some (.object written)) := by
  refine .of_steps (fun members isSource keeps => ?_) fun step next found => ?_
  · cases isSource
    cases isOpen : model.isOpen with
    | true => exact ⟨written, rfl, by simp only [Form.retained, isOpen, rest isOpen]⟩
    | false => exact absurd (by simp [Form.retained, isOpen]) keeps
  · cases step with
    | index position => cases found
    | key name =>
      have found : OrderedMap.get? members name = some next := found
      show Retains ((model.fields.lookup name).getD _) next (OrderedMap.get? written name)
      cases declared : model.fields.lookup name with
      | some form =>
        exact each (name, form) (OrderedMap.mem_of_get? declared) next found
          (Json.isKeyed_of_mem keyed (OrderedMap.mem_of_get? found))
      | none =>
        have unlisted : name ∉ model.names := OrderedMap.get?_eq_none.mp declared
        cases isOpen : model.isOpen with
        | false => exact .lost
        | true =>
          rw [← get?_undeclared unlisted, rest isOpen, get?_undeclared unlisted, found]
          exact .free next

end ServiceForge.Document
