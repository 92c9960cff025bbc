/-
This file holds the commands of the cloud's command line with their names and
writes them: the parser of the arguments and the action, which calls the client of
the service.
-/

import ServiceForge.Generation.Resource
import ServiceForge.Source.Literal
import ServiceForge.Source.Text

namespace ServiceForge.Osc

open ServiceForge.Descriptor (AttributeType Verb VerbOption)
open ServiceForge.Generation
open ServiceForge.Source
open ServiceForge.Text

/-- A command: one verb on one resource. -/
structure Command where
  descriptor : Descriptor
  service : String
  version : String
  resource : String
  plural : String
  verb : Verb

namespace Command

/-- The command for one verb of a requested resource. -/
def ofRequest (request : ResourceRequest) (verb : Verb) : Command :=
  { descriptor := request.descriptor
    service := request.serviceModule
    version := Naming.moduleName request.apiVersion
    resource := request.resourceModule
    plural := request.plural
    verb }

/-- The options that the verb of the command takes. -/
def options (command : Command) : List VerbOption := command.verb.options command.descriptor

/-- The name of the class that implements the command. -/
def className (command : Command) : String :=
  Naming.typeName command.verb.name ++ Naming.typeName command.resource

/-- The resource as words for a reader. -/
def noun (command : Command) : String := spaced command.resource

/-- What the command does, in one line. -/
def description (command : Command) : String :=
  match command.verb with
  | .list => "List " ++ spaced command.plural
  | .showItem => "Display " ++ command.noun ++ " details"
  | .create => "Create new " ++ command.noun
  | .delete => "Delete " ++ command.noun ++ "(s)"
  | .set => "Set " ++ command.noun ++ " properties"
  | .unset => "Unset " ++ command.noun ++ " properties"

/-- The directory of the command. -/
def directory (command : Command) : String :=
  command.service ++ "/" ++ command.version ++ "/" ++ command.resource

end Command

namespace Command

/-! ### Head -/

/-- Whether an option of the command takes a value of the given type. -/
def takes (command : Command) (type : AttributeType) : Bool :=
  command.options.any fun option => !option.clears && option.described.type = type

/-- The lines of the imports, with those that only some types of attributes need. -/
def importLines (command : Command) : List String :=
  (if command.takes .boolean then ["import argparse", ""] else []) ++
    (if command.takes .dictionary then ["from osc_lib.cli import parseractions"] else []) ++
    ["from osc_lib.command import command", "from osc_lib import utils", "",
      "from openstackclient.i18n import _", "", ""]

/-- The class that commands of a verb are made from. -/
def baseClass : Verb → String
  | .list => "command.Lister"
  | .showItem | .create => "command.ShowOne"
  | .delete | .set | .unset => "command.Command"

/-- The lines of a command down to its first function. -/
def headLines (command : Command) : List String :=
  ["\"\"\"" ++ command.description ++ ".", "",
    "Generated from the " ++ command.descriptor.name ++ " resource descriptor.", "\"\"\"", ""] ++
    command.importLines ++
    ["class " ++ command.className ++ "(" ++ baseClass command.verb ++ "):",
      "    _description = _(" ++ plainLiteral command.description ++ ")", ""]

/-! ### Arguments -/

/-- The placeholder of a value in a usage message. -/
def placeholder (name : String) : String :=
  "            metavar=" ++ plainLiteral ("<" ++ name ++ ">") ++ ","

/-- The argument that names the resources to act on. -/
def positionalLines (command : Command) : List String :=
  let help :=
    match command.verb with
    | .delete => command.noun ++ "(s) to delete (name or ID)"
    | .showItem => command.noun ++ " to display (name or ID)"
    | _ => command.noun ++ " to modify (name or ID)"
  ["        parser.add_argument(", "            " ++ plainLiteral command.resource ++ ",",
    placeholder command.resource] ++
    (if command.verb = .delete then ["            nargs=\"+\","] else []) ++
    ["            help=_(" ++ plainLiteral help ++ "),", "        )"]

/-- The help text of an option. -/
def optionHelp (verb : Verb) (option : VerbOption) : String :=
  let noun := spaced option.name
  if option.clears then "Clear " ++ noun
  else if verb = .list then "Filter by " ++ noun
  else (summaryLine? option.described.doc).getD ("New " ++ noun)

/-- How the value of an option is taken. -/
def valueLines (option : VerbOption) : List String :=
  if option.clears then ["            action=\"store_true\","]
  else
    match option.described.type with
    | .boolean =>
      ["            action=argparse.BooleanOptionalAction,", "            default=None,"]
    | .list => [placeholder option.destination, "            action=\"append\","]
    | .dictionary =>
      [placeholder "key=value", "            action=parseractions.KeyValueAction,"]
    | .integer => [placeholder option.destination, "            type=int,"]
    | .float => [placeholder option.destination, "            type=float,"]
    | .text | .raw => [placeholder option.destination]

/-- The lines that declare an option. -/
def optionLines (verb : Verb) (option : VerbOption) : List String :=
  ["        parser.add_argument(", "            " ++ plainLiteral option.flag ++ ",",
    "            dest=" ++ plainLiteral option.destination ++ ","] ++
    valueLines option ++
    (if option.required then ["            required=True,"] else []) ++
    ["            help=_(" ++ plainLiteral (optionHelp verb option) ++ "),", "        )"]

/-- The lines of the function that declares the arguments of a command. -/
def parserLines (command : Command) : List String :=
  ["    def get_parser(self, prog_name):", "        parser = super().get_parser(prog_name)"] ++
    (if command.verb.targetsExisting then command.positionalLines else []) ++
    forEach command.options (optionLines command.verb) ++
    ["        return parser", ""]

/-! ### Action -/

/-- Collects the value of an option. -/
def collectLines (option : VerbOption) : List String :=
  let member := "            attrs[" ++ plainLiteral option.name ++ "] = "
  if option.clears then
    ["        if parsed_args." ++ option.destination ++ ":", member ++ "None"]
  else
    ["        if parsed_args." ++ option.destination ++ " is not None:",
      member ++ "parsed_args." ++ option.destination]

/-- The names of all attributes as a tuple. -/
def columns (command : Command) : String :=
  match command.descriptor.attributes.keys with
  | [single] => "(" ++ plainLiteral single ++ ",)"
  | names => "(" ++ join ", " (names.map plainLiteral) ++ ")"

/-- The collected values as the arguments of a call. -/
def callArguments (command : Command) : String :=
  if command.options.isEmpty then "" else "**attrs"

/-- The call that finds the resource that the arguments name. -/
def findCall (command : Command) : String :=
  "client.find_" ++ command.resource ++ "(parsed_args." ++ command.resource ++
    ", ignore_missing=False)"

/-- The line that sets the columns that are shown. -/
def columnsLine (command : Command) : String := "        columns = " ++ command.columns

/-- The lines that show what a call returns. -/
def itemLines (command : Command) (call : String) : List String :=
  ["        obj = " ++ call, command.columnsLine,
    "        return (columns, utils.get_item_properties(obj, columns))"]

/-- The lines that carry out the verb of the command. -/
def callLines (command : Command) : List String :=
  match command.verb with
  | .list =>
    [command.columnsLine,
      "        data = client." ++ command.plural ++ "(" ++ command.callArguments ++ ")",
      "        return (", "            columns,",
      "            (utils.get_item_properties(item, columns) for item in data),", "        )"]
  | .showItem => command.itemLines command.findCall
  | .create =>
    command.itemLines
      ("client.create_" ++ command.resource ++ "(" ++ command.callArguments ++ ")")
  | .delete =>
    ["        for name_or_id in parsed_args." ++ command.resource ++ ":",
      "            obj = client.find_" ++ command.resource ++
        "(name_or_id, ignore_missing=False)",
      "            client.delete_" ++ command.resource ++ "(obj)"]
  | .set | .unset =>
    if command.options.isEmpty then ["        " ++ command.findCall]
    else
      ["        obj = " ++ command.findCall, "        if attrs:",
        "            client.update_" ++ command.resource ++ "(obj, **attrs)"]

/-- The lines of the function that carries out a command. -/
def actionLines (command : Command) : List String :=
  ["    def take_action(self, parsed_args):",
    "        client = self.app.client_manager.sdk_connection." ++ command.service] ++
    (if command.options.isEmpty then []
      else "        attrs = \x7b\x7d" :: forEach command.options collectLines) ++
    command.callLines

/-- The module of the command. -/
def source (command : Command) : String :=
  ofLines (command.headLines ++ command.parserLines ++ command.actionLines)

end Command

end ServiceForge.Osc
