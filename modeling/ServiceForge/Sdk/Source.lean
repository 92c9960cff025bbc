/-
This file writes the modules of the client library: the request with its
builder, the endpoint that it is sent to, and the types declared for it.
-/

import ServiceForge.Number.Binary64
import ServiceForge.Sdk.Context
import ServiceForge.Source.Literal
import ServiceForge.Source.Text

namespace ServiceForge.Sdk

open ServiceForge.Generation
open ServiceForge.Lowering (Binding Field Subtype Types ValueType)
open ServiceForge.Source
open ServiceForge.Text

/-! ### Versions -/

/-- A number of 32 bits, perhaps after a plus. -/
def number? (text : String) : Option Nat :=
  let digits := match text.toList with
    | '+' :: digits => digits
    | digits => digits
  let value := digits.foldl (fun value digit => value * 10 + (digit.toNat - '0'.toNat)) 0
  if !digits.isEmpty && digits.all Char.isDigit && value < powerOfTwo 32 then some value else none

/-- The two numbers of a version such as `2.19`. -/
def versionNumbers? (version : String) : Option (Nat × Nat) := do
  let (major, minor) ← splitOnce? '.' version
  return (← number? major, ← number? minor)

/-! ### Declared types -/

/-- The lifetime parameter of a type, if its values borrow. -/
def lifetime (borrows : Bool) : String := if borrows then "<'a>" else ""

/-- The lifetime argument of a type where it is left open, if its values borrow. -/
def elidedLifetime (borrows : Bool) : String := if borrows then "<'_>" else ""

/-- The attribute of a member that the builder sets. -/
def builderAttribute (type : ValueType) : String :=
  if type.isOptional then "    #[builder(default, setter(into))]"
  else "    #[builder(setter(into))]"

/-- The conditions under which a field is read and written. -/
def serdeConditions (field : Field) : List String :=
  (if field.name = field.wireName then [] else ["rename = " ++ escapedLiteral field.wireName]) ++
    (if field.type.isOptional then ["default", "skip_serializing_if = \"Option::is_none\""]
      else [])

/-- The line of an attribute for how a field is serialized, if it needs one. -/
def serdeAttribute (field : Field) : List String :=
  let conditions := serdeConditions field
  if conditions.isEmpty then [] else ["    #[serde(" ++ join ", " conditions ++ ")]"]

/-- The lines of a field of a declared structure. -/
def structureField (types : Types) (field : Field) : List String :=
  documentation "    " field.description ++ serdeAttribute field ++
    [builderAttribute field.type,
      "    pub(crate) " ++ field.name ++ ": " ++ types.render field.type ++ ","]

/-- The lines of the field for additional properties. -/
def additionalField (types : Types) (type : ValueType) : List String :=
  ["", "    #[builder(setter(name = \"_properties\"), default, private)]",
    "    #[serde(flatten)]", "    _properties: " ++ types.render type ++ ","]

/-- The lines of an enumeration up to its end. -/
def variantLines (types : Types) (name parameters : String) : Lowering.Variants → List String
  | .texts variants =>
    ["pub enum " ++ name ++ " \x7b"] ++
      forEach variants fun (variant, wire) =>
        ["    #[serde(rename = " ++ escapedLiteral wire ++ ")]", "    " ++ variant ++ ","]
  | .versioned variants =>
    ["#[serde(untagged)]", "pub enum " ++ name ++ parameters ++ " \x7b"] ++
      forEach variants fun (variant, version, type) =>
        ["    /// Microversion " ++ version ++ ".",
          "    " ++ variant ++ "(" ++ types.render type ++ "),"]
  | .untagged variants =>
    ["#[serde(untagged)]", "pub enum " ++ name ++ parameters ++ " \x7b"] ++
      forEach variants fun (variant, type) =>
        ["    " ++ variant ++ "(" ++ types.render type ++ "),"]

/-- The lines that declare a type. -/
def subtypeLines (types : Types) (subtype : Subtype) : List String :=
  let parameters := lifetime (types.subtypeBorrows subtype)
  documentation "" subtype.description ++
    match subtype.shape with
    | .structure fields additional =>
      ["#[derive(Builder, Debug, Deserialize, Clone, Serialize)]",
        "#[builder(setter(strip_option))]",
        "pub struct " ++ subtype.name ++ parameters ++ " \x7b"] ++
        forEach fields (structureField types) ++
        forEach additional.toList (additionalField types) ++
        ["\x7d"]
    | .enumeration variants =>
      ["#[derive(Debug, Deserialize, Clone, Serialize)]"] ++
        variantLines types subtype.name parameters variants ++
        ["\x7d"]

/-! ### Requests -/

/-- The lines of the member for a parameter. -/
def bindingMember (types : Types) (binding : Binding) : List String :=
  documentation "    " binding.description ++
    [builderAttribute binding.type,
      "    " ++ binding.name ++ ": " ++ types.render binding.type ++ ",", ""]

/-- The lines of the member for a field of the body. -/
def fieldMember (types : Types) (field : Field) : List String :=
  documentation "    " field.description ++
    [builderAttribute field.type,
      "    pub(crate) " ++ field.name ++ ": " ++ types.render field.type ++ ",", ""]

/-- The lines of the members for the body. -/
def bodyMembers (types : Types) : Body → List String
  | .empty => []
  | .fields fields => forEach fields (fieldMember types)
  | .value type =>
    [builderAttribute type, "    pub(crate) body: " ++ types.render type ++ ",", ""]
  | .patch =>
    ["    /// JSON patch applied to the resource.", "    #[builder(setter(into))]",
      "    pub(crate) patch: Patch,", ""]
  | .binary =>
    ["    /// Raw payload.", "    #[builder(setter(into))]", "    pub(crate) body: Vec<u8>,", ""]

/-- The member that holds the headers of a request. -/
def headersMember : List String :=
  ["    #[builder(setter(name = \"_headers\"), default, private)]",
    "    _headers: Option<HeaderMap>,", "\x7d", ""]

/-- The function that begins to build a request. -/
def builderFunction (parameters : String) : List String :=
  ["impl" ++ parameters ++ " Request" ++ parameters ++ " \x7b",
    "    /// Create a builder for the endpoint.",
    "    pub fn builder() -> RequestBuilder" ++ parameters ++ " \x7b",
    "        RequestBuilder::default()", "    \x7d", "\x7d", ""]

/-- The lines of the function that adds a header to a request. -/
def headerFunction : List String :=
  ["    /// Add a single header to the request.",
    "    pub fn header(&mut self, header_name: &'static str, header_value: &'static str) -> " ++
      "&mut Self \x7b",
    "        self._headers", "            .get_or_insert(None)",
    "            .get_or_insert_with(HeaderMap::new)",
    "            .insert(header_name, HeaderValue::from_static(header_value));", "        self",
    "    \x7d"]

/-- The setter of a header. -/
def headerSetter (binding : Binding) : List String :=
  [""] ++ documentation "    " binding.description ++
    ["    pub fn " ++ binding.name ++ "(&mut self, value: &'static str) -> &mut Self \x7b",
      "        self.header(" ++ escapedLiteral binding.wireName ++ ", value)", "    \x7d"]

/-- The lines that declare the request of an endpoint and its builder. -/
def requestLines (context : Context) : List String :=
  let parameters := lifetime context.borrows
  ["/// Request of \x60" ++ context.moduleName ++ "\x60 on \x60" ++ context.resource ++ "\x60.",
    "#[derive(Builder, Debug, Clone)]", "#[builder(setter(strip_option))]",
    "pub struct Request" ++ parameters ++ " \x7b"] ++
    forEach context.memberBindings (bindingMember context.types) ++
    bodyMembers context.types context.body ++
    headersMember ++
    builderFunction parameters ++
    ["impl" ++ parameters ++ " RequestBuilder" ++ parameters ++ " \x7b"] ++
    headerFunction ++
    forEach context.headerBindings headerSetter ++
    ["\x7d"]

/-! ### Endpoints -/

/-- The argument of the format expression that fills a hole. -/
def endpointArgument (binding : Binding) : String :=
  let value := binding.name ++ " = self." ++ binding.name
  if binding.type.withoutOption = .text then value ++ ".as_ref()" else value

/-- The template of an endpoint, its holes named after the bindings. -/
def endpointTemplate (url : String) (bindings : List Binding) : String :=
  bindings.foldl (fun url binding => replace (hole binding.wireName) (hole binding.name) url) url

/-- The expression of the path that a request is sent to. -/
def endpointExpression (context : Context) : String :=
  let bindings := context.pathBindings
  if bindings.isEmpty then escapedLiteral context.url ++ ".to_string().into()"
  else
    "format!(" ++ escapedLiteral (endpointTemplate context.url bindings) ++ ", " ++
      join ", " (bindings.map endpointArgument) ++ ").into()"

/-- The line that adds a parameter to the query. -/
def queryParameter (binding : Binding) : String :=
  let wire := escapedLiteral binding.wireName
  if binding.type.isOptional then
    "        params.push_opt(" ++ wire ++ ", self." ++ binding.name ++ ".as_ref());"
  else "        params.push(" ++ wire ++ ", &self." ++ binding.name ++ ");"

/-- The lines of the function for the query, if there are parameters in it. -/
def queryFunction (bindings : List Binding) : List String :=
  if bindings.isEmpty then []
  else
    ["", "    fn parameters(&self) -> QueryParams<'_> \x7b",
      "        let mut params = QueryParams::default();"] ++
      bindings.map queryParameter ++
      ["        params", "    \x7d"]

/-- The lines that add a field to the body. -/
def bodyField (field : Field) : List String :=
  let wire := escapedLiteral field.wireName
  if field.type.isOptional then
    ["        if let Some(val) = &self." ++ field.name ++ " \x7b",
      "            params.push(" ++ wire ++ ", serde_json::to_value(val)?);", "        \x7d"]
  else
    ["        params.push(" ++ wire ++ ", serde_json::to_value(&self." ++ field.name ++ ")?);"]

/-- The statements that make the body, without an empty one. -/
def bodyStatements (media : String) (key : Option String) : Body → List String
  | .empty => []
  | .fields fields =>
    ["        let mut params = JsonBodyParams::default();", ""] ++
      forEach fields bodyField ++
      ["",
        match key with
        | some key => "        params.into_body_with_root_key(" ++ escapedLiteral key ++ ")"
        | none => "        params.into_body()"]
  | .value _ =>
    match key with
    | some key =>
      ["        let body = serde_json::json!(\x7b " ++ escapedLiteral key ++ ": &self.body \x7d);",
        "        Ok(Some((" ++ media ++ ", serde_json::to_vec(&body)?)))"]
    | none => ["        Ok(Some((" ++ media ++ ", serde_json::to_vec(&self.body)?)))"]
  | .patch => ["        Ok(Some((" ++ media ++ ", serde_json::to_vec(&self.patch)?)))"]
  | .binary => ["        Ok(Some((" ++ media ++ ", self.body.clone())))"]

/-- The lines of the function for the body, if there is one. -/
def bodyFunction (context : Context) : List String :=
  let media := escapedLiteral (context.mediaType.getD OpenApi.MediaType.json)
  if context.body = .empty then []
  else
    ["", "    fn body(&self) -> Result<Option<(&'static str, Vec<u8>)>, BodyError> \x7b"] ++
      bodyStatements media context.requestKey context.body ++
      ["    \x7d"]

/-- The lines of the function for the key of each item, if there is one. -/
def itemKeyFunction (key : Option String) : List String :=
  forEach key.toList fun key =>
    ["", "    fn response_list_item_key(&self) -> Option<Cow<'static, str>> \x7b",
      "        Some(" ++ escapedLiteral key ++ ".into())", "    \x7d"]

/-- The lines of the function for the version, if it is a microversion. -/
def versionFunction (version : Option String) : List String :=
  forEach (version.bind versionNumbers?).toList fun (major, minor) =>
    ["", "    fn api_version(&self) -> Option<ApiVersion> \x7b",
      "        Some(ApiVersion::new(" ++ toString major ++ ", " ++ toString minor ++ "))",
      "    \x7d"]

/-- The lines that implement an endpoint. -/
def endpointLines (context : Context) : List String :=
  ["impl RestEndpoint for Request" ++ elidedLifetime context.borrows ++ " \x7b",
    "    fn method(&self) -> http::Method \x7b",
    "        http::Method::" ++ context.method.wireName, "    \x7d", "",
    "    fn endpoint(&self) -> Cow<'static, str> \x7b",
    "        " ++ endpointExpression context, "    \x7d"] ++
    queryFunction context.queryBindings ++
    bodyFunction context ++
    ["", "    fn service_type(&self) -> ServiceType \x7b",
      "        ServiceType::" ++ Naming.typeName context.service, "    \x7d", "",
      "    fn response_key(&self) -> Option<Cow<'static, str>> \x7b",
      match context.responseKey with
      | some key => "        Some(" ++ escapedLiteral key ++ ".into())"
      | none => "        None",
      "    \x7d"] ++
    itemKeyFunction context.itemKey ++
    ["", "    fn request_headers(&self) -> Option<&HeaderMap> \x7b",
      "        self._headers.as_ref()", "    \x7d"] ++
    versionFunction context.version ++
    ["\x7d"]

/-! ### Lookups -/

/-- Calls the setter of a request builder with a member of the same name. -/
def forwardMember (name : String) : String :=
  "        ep." ++ name ++ "(self." ++ name ++ ".clone());"

/-- The lines that build an endpoint and end the function around them. -/
def buildEndpoint : List String :=
  ["        ep.build().map_err(|err| FindError::InvalidEndpoint(err.to_string()))", "    \x7d"]

/-- The lines of an endpoint that finds a resource by its name or id. -/
def findLines (context : Context) (key : String) : List String :=
  let parents := context.pathBindings.filter fun binding => binding.name ≠ key
  ["/// Find a \x60" ++ context.resource ++ "\x60 by name or id.",
    "#[derive(Builder, Debug, Clone)]", "#[builder(setter(strip_option))]",
    "pub struct Request<'a> \x7b", "    /// Name or id of the resource.",
    "    #[builder(setter(into), default)]", "    " ++ key ++ ": Cow<'a, str>,", ""] ++
    forEach parents (fun parent =>
      documentation "    " parent.description ++
        ["    #[builder(setter(into), default)]",
          "    " ++ parent.name ++ ": Cow<'a, str>,", ""]) ++
    headersMember ++
    builderFunction "<'a>" ++
    ["impl<'a> Findable for Request<'a> \x7b", "    type G = show::Request<'a>;",
      "    type L = list::Request<'a>;", "",
      "    fn get_ep(&self) -> Result<show::Request<'a>, FindError> \x7b",
      "        let mut ep = show::Request::builder();", forwardMember key] ++
    parents.map (forwardMember ·.name) ++
    buildEndpoint ++
    ["", "    fn list_ep(&self) -> Result<list::Request<'a>, FindError> \x7b",
      "        let mut ep = list::Request::builder();"] ++
    parents.map (forwardMember ·.name) ++
    buildEndpoint ++
    ["\x7d"]

/-! ### Modules -/

/-- The first line of the summary, or the method and the path of the operation. -/
def title (context : Context) : String :=
  match (context.summary.bind fun summary => (lines summary).head?) with
  | some line => line
  | none => context.method.wireName ++ " \x60" ++ context.url ++ "\x60"

/-- The lines of the heading of a module, with its imports. -/
def headingLines (context : Context) : List String :=
  ["//! " ++ trim (title context), "//!", "//! Operation \x60" ++ context.operation ++ "\x60.", "",
    "use derive_builder::Builder;", "use http::\x7bHeaderMap, HeaderValue\x7d;", "",
    "use crate::api::rest_endpoint_prelude::*;"] ++
    (if context.types.subtypes.isEmpty then []
      else ["use serde::\x7bDeserialize, Serialize\x7d;"]) ++
    context.imports.map fun path => "use " ++ path ++ ";"

/-- All lines of the module of an endpoint. -/
def moduleLines (context : Context) : List String :=
  headingLines context ++
    match context.findKey with
    | some key => ["", "use super::\x7blist, show\x7d;", ""] ++ findLines context key
    | none =>
      forEach context.types.subtypes (fun subtype => [""] ++ subtypeLines context.types subtype) ++
        [""] ++ requestLines context ++
        [""] ++ endpointLines context ++
        (if context.kind.isList then
          ["", "impl Pageable for Request" ++ elidedLifetime context.borrows ++ " \x7b\x7d"]
        else [])

/-- The source of a module. -/
def render (context : Context) : String := ofLines (moduleLines context)

/-- The modules of an operation. -/
def generate (request : OperationRequest) : Except GenerationError (List File) := do
  return (← contexts request).map fun context => .ofModule context.record (render context)

end ServiceForge.Sdk
