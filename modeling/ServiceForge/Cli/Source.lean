/-
This file writes the modules of the command line tool: the arguments of a
command, the rows that it shows, and the call of the client library.
-/

import ServiceForge.Cli.Context
import ServiceForge.Source.Literal
import ServiceForge.Source.Text

namespace ServiceForge.Cli

open ServiceForge.Generation
open ServiceForge.Lowering (Binding Field Types ValueType)
open ServiceForge.Source
open ServiceForge.Text

/-! ### Imports -/

/-- The module that shows one resource, beside the wrapped one. -/
def showModule (context : Context) : String :=
  join "::" (context.sdkPath.dropLast ++ ["show"])

/-- The name under which the wrapped module is called. -/
def endpointModule (context : Context) : String := context.sdkPath.getLast?.getD ""

/-- The paths that every command imports. -/
def commonImports (context : Context) : List String :=
  ["clap::Args", "serde::\x7bDeserialize, Serialize\x7d", "tracing::info",
    "crate::output::OutputProcessor", "crate::Cli", "crate::OpenStackCliError",
    "crate::StructTable", "structable_derive::StructTable",
    context.sdkCrate ++ "::AsyncOpenStack", context.sdkModule]

/-- The paths that commands of a shape import. -/
def shapeImports (context : Context) : List String :=
  let api (name : String) := context.sdkCrate ++ "::api::" ++ name
  match context.shape with
  | .list => [api "QueryAsync", api "paged", api "Pagination"]
  | .single => [api "QueryAsync"]
  | .headerOnly => [api "RawQueryAsync", "bytes::Bytes", "http::Response"]
  | .download => [api "RawQueryAsync", "crate::common::download_file"]
  | .upload =>
    [api "RawQueryAsync", "crate::common::build_upload_asyncread", "bytes::Bytes",
      "http::Response"]
  | .patch =>
    [api "QueryAsync", "json_patch::diff", "json_patch::Patch", "serde_json::json",
      showModule context]

/-- Every import of a module. -/
def imports (context : Context) : List String :=
  SortedSet.ofList (commonImports context ++ context.loweredImports ++ shapeImports context)

/-! ### Arguments -/

/-- The attribute of an argument of the given type. -/
def argumentAttribute (types : Types) (type : ValueType) : String :=
  match type.withoutOption with
  | .boolean => "#[arg(action = clap::ArgAction::Set, long)]"
  | .list _ | .commaSeparated _ => "#[arg(action = clap::ArgAction::Append, long)]"
  | .json => "#[arg(long, value_name = \"JSON\", value_parser = crate::common::parse_json)]"
  | .map value =>
    "#[arg(long, value_name = \"key=value\", value_parser = " ++
      "crate::common::parse_key_val::<String, " ++ types.render value ++ ">)]"
  | _ => "#[arg(long)]"

/-- The lines of an argument that is sent in the body. -/
def bodyArgument (types : Types) (field : Field) : List String :=
  [""] ++ documentation "    " field.description ++
    ["    " ++ argumentAttribute types field.type,
      "    " ++ field.name ++ ": " ++ types.render field.type ++ ","]

/-- The lines of the argument that names a local file, for commands that stream one. -/
def fileArgument (shape : Shape) : List String :=
  if shape = .download || shape = .upload then
    ["", "    /// Local file to stream (stdout/stdin when absent)",
      "    #[arg(long, value_name = \"PATH\")]", "    file: Option<String>,"]
  else []

/-- The lines of an argument that is sent in the query. -/
def queryArgument (types : Types) (binding : Binding) : List String :=
  documentation "    " binding.description ++
    ["    " ++ argumentAttribute types binding.type,
      "    " ++ binding.name ++ ": " ++ types.render binding.type.toOptional ++ ",", ""]

/-- The lines of an argument that is a part of the path. -/
def pathArgument (binding : Binding) : List String :=
  let shown := upper (trimStart (· = '_') binding.name)
  documentation "    " binding.description ++
    ["    #[arg(id = " ++ escapedLiteral ("path_param_" ++ binding.name) ++ ", value_name = " ++
        escapedLiteral shown ++ ")]",
      "    " ++ binding.name ++ ": String,", ""]

/-- The lines that declare the arguments of a command. -/
def argumentLines (context : Context) : List String :=
  let types := context.requestTypes
  documentation "" (some (context.summary.getD context.about)) ++
    ["#[derive(Args)]", "#[command(about = " ++ escapedLiteral context.about ++ ")]",
      "pub struct " ++ context.commandName ++ " \x7b",
      "    /// Request query parameters", "    #[command(flatten)]",
      "    query: QueryParameters,", "",
      "    /// Path parameters", "    #[command(flatten)]", "    path: PathParameters,"] ++
    forEach context.bodyFields (bodyArgument types) ++
    fileArgument context.shape ++
    ["\x7d", "", "/// Query parameters", "#[derive(Args)]", "struct QueryParameters \x7b"] ++
    forEach context.queryBindings (queryArgument types) ++
    ["\x7d", "", "/// Path parameters", "#[derive(Args)]", "struct PathParameters \x7b"] ++
    forEach context.pathBindings pathArgument ++
    ["\x7d"]

/-! ### Output -/

/-- The columns that a list shows even when it is narrow. -/
def basicColumns : List String := ["id", "name", "created_at", "updated_at"]

/-- The lines of a column that shows a header. -/
def headerColumn (column : String × String) : List String :=
  ["    /// \x60" ++ column.2 ++ "\x60 header",
    "    #[serde(rename = " ++ escapedLiteral column.2 ++ ")]", "    #[structable(optional)]",
    "    " ++ column.1 ++ ": Option<String>,", ""]

/-- The lines of a column that shows a field. Lists hide the less common ones at first. -/
def responseColumn (context : Context) (field : Field) : List String :=
  let wide := context.shape = .list && !basicColumns.contains field.wireName
  documentation "    " field.description ++
    (if field.name = field.wireName then []
      else ["    #[serde(rename = " ++ escapedLiteral field.wireName ++ ")]"]) ++
    [if wide then "    #[structable(optional, wide)]" else "    #[structable(optional)]",
      "    " ++ field.name ++ ": " ++ context.responseTypes.render field.type ++ ",", ""]

/-- The name of the type of the resource. -/
def resourceTypeName (resource : String) : String :=
  let leaf := (split '/' resource).getLast?.getD resource
  Naming.typeName (Naming.singularize (Naming.moduleName leaf))

/-- The lines of the structure that a response is shown from. -/
def responseLines (context : Context) : List String :=
  ["/// " ++ resourceTypeName context.resource ++ " response representation",
    "#[derive(Deserialize, Serialize, Clone, Default, StructTable)]", "struct ResponseData \x7b"] ++
    (if context.shape = .headerOnly then forEach context.headerColumns headerColumn
      else forEach context.responseFields (responseColumn context)) ++
    ["\x7d"]

/-! ### The call -/

/-- The expression that passes a value to a setter of the client library. -/
def setterValue (value : String) (type : ValueType) : String :=
  match type.withoutOption with
  | .text => value
  | .dateTime | .int32 | .int64 | .float32 | .float64 | .boolean => "*" ++ value
  | .list _ | .commaSeparated _ => value ++ ".iter().map(Into::into).collect::<Vec<_>>()"
  | .map _ => value ++ ".iter().cloned()"
  | _ => value ++ ".clone()"

/-- The line that hands a part of the path to a builder. -/
def setPath (builder : String) (binding : Binding) : String :=
  "        " ++ builder ++ "." ++ binding.name ++ "(&self.path." ++ binding.name ++ ");"

/-- The lines that hand an argument of the query to the builder, if it is given. -/
def setQuery (binding : Binding) : List String :=
  ["        if let Some(val) = &self.query." ++ binding.name ++ " \x7b",
    "            ep_builder." ++ binding.name ++ "(" ++ setterValue "val" binding.type ++ ");",
    "        \x7d"]

/-- Passes an argument to the setter that has its name without marks at the end. -/
def setField (field : Field) : List String :=
  let setter := trimEnd (· = '_') field.name
  if field.type.isOptional then
    ["        if let Some(val) = &self." ++ field.name ++ " \x7b",
      "            ep_builder." ++ setter ++ "(" ++ setterValue "val" field.type ++ ");",
      "        \x7d"]
  else
    ["        ep_builder." ++ setter ++ "(" ++ setterValue ("&self." ++ field.name) field.type ++
      ");"]

/-- The lines that put a field into a patched resource, if it is given. -/
def patchField (field : Field) : List String :=
  ["        if let Some(val) = &self." ++ field.name ++ " \x7b",
    "            new[" ++ escapedLiteral field.wireName ++ "] = json!(val);", "        \x7d"]

/-- Builds a request of the named builder. -/
def buildRequest (target builder : String) : List String :=
  ["        let " ++ target ++ " = " ++ builder, "            .build()",
    "            .map_err(|x| OpenStackCliError::EndpointBuild(x.to_string()))?;"]

/-- Fetches the resource and makes a patch of the changes. -/
def setPatch (context : Context) : List String :=
  ["", "        let mut find_builder = show::Request::builder();"] ++
    context.pathBindings.map (setPath "find_builder") ++
    buildRequest "find_ep" "find_builder" ++
    ["        let current: serde_json::Value = find_ep.query_async(client).await?;",
      "        let mut new = current.clone();"] ++
    forEach context.bodyFields patchField ++
    ["        let patch: Patch = diff(&current, &new);", "        ep_builder.patch(patch);"]

/-- The lines that read the header of a column from the response. -/
def readHeader (column : String × String) : List String :=
  ["            " ++ column.1 ++ ": rsp", "                .headers()",
    "                .get(" ++ escapedLiteral column.2 ++ ")",
    "                .and_then(|v| v.to_str().ok())", "                .map(ToString::to_string),"]

/-- Sends the request and shows the result. -/
def sendLines (context : Context) : List String :=
  match context.shape with
  | .list =>
    ["        let data: Vec<serde_json::Value> = paged(ep, Pagination::All)",
      "            .query_async(client)", "            .await?;",
      "        op.output_list::<ResponseData>(data)?;"]
  | .single | .patch =>
    ["        let data = ep.query_async(client).await?;",
      "        op.output_single::<ResponseData>(data)?;"]
  | .headerOnly =>
    ["        let rsp: Response<Bytes> = ep.raw_query_async(client).await?;",
      "        let data = ResponseData \x7b"] ++
      forEach context.headerColumns readHeader ++
      ["        \x7d;", "        op.output_single::<ResponseData>(serde_json::to_value(data)?)?;"]
  | .download =>
    ["        let (headers, data) = ep.download_async(client).await?;",
      "        let size: u64 = headers", "            .get(\"content-length\")",
      "            .and_then(|x| x.to_str().ok())", "            .and_then(|x| x.parse().ok())",
      "            .unwrap_or(0);",
      "        download_file(self.file.clone().unwrap_or_default(), size, data).await?;"]
  | .upload =>
    ["        let data = build_upload_asyncread(self.file.clone()).await?;",
      "        let _rsp: Response<Bytes> = ep.raw_query_read_body_async(client, data).await?;"]

/-- The lines that carry out a command. -/
def actionLines (context : Context) : List String :=
  ["impl " ++ context.commandName ++ " \x7b", "    /// Perform command action",
    "    pub async fn take_action(", "        &self,", "        parsed_args: &Cli,",
    "        client: &mut AsyncOpenStack,", "    ) -> Result<(), OpenStackCliError> \x7b",
    "        info!(" ++ escapedLiteral context.about ++ ");", "",
    "        let op = OutputProcessor::from_args(parsed_args);",
    "        op.validate_args(parsed_args)?;", "",
    "        let mut ep_builder = " ++ endpointModule context ++ "::Request::builder();"] ++
    context.pathBindings.map (setPath "ep_builder") ++
    forEach context.queryBindings setQuery ++
    (if context.shape = .patch then setPatch context else forEach context.bodyFields setField) ++
    [""] ++ buildRequest "ep" "ep_builder" ++ [""] ++
    sendLines context ++
    ["        Ok(())", "    \x7d", "\x7d"]

/-! ### Modules -/

/-- All lines of the module of a command. -/
def moduleLines (context : Context) : List String :=
  ["//! " ++ context.about ++ " command", "//!",
    "//! Wraps operation \x60" ++ context.operation ++ "\x60.", ""] ++
    ((imports context).map fun path => "use " ++ path ++ ";") ++
    [""] ++ argumentLines context ++
    [""] ++ responseLines context ++
    [""] ++ actionLines context

/-- The source of a module. -/
def render (context : Context) : String := ofLines (moduleLines context)

/-- The modules of an operation. -/
def generate (sdkCrate : String) (request : OperationRequest) :
    Except GenerationError (List File) := do
  return (← contexts sdkCrate request).map fun context =>
    .ofModule context.record (render context)

end ServiceForge.Cli
