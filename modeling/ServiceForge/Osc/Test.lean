/-
This file writes the tests of the commands: each runs its command on sample
arguments and checks what the client was asked for.
-/

import ServiceForge.Osc.Source

namespace ServiceForge.Osc

open ServiceForge.Descriptor (AttributeType Verb VerbOption)
open ServiceForge.Generation
open ServiceForge.Source
open ServiceForge.Text

/-! ### Samples -/

/-- A value on the command line, if the option takes one, and what it is parsed to. -/
def sample : AttributeType → Option String × String
  | .text => (some "value", plainLiteral "value")
  | .integer => (some "1", "1")
  | .float => (some "1.5", "1.5")
  | .boolean => (none, "True")
  | .list => (some "item", "[" ++ plainLiteral "item" ++ "]")
  | .dictionary => (some "key=value", "\x7b" ++ plainLiteral "key" ++ ": " ++
      plainLiteral "value" ++ "\x7d")
  | .raw => (some "value", plainLiteral "value")

/-- The sample of a resource to act on. -/
def sampleId : String := plainLiteral "res-id"

namespace Command

/-- The options of a command that have to be given. -/
def requiredOptions (command : Command) : List VerbOption := command.options.filter (·.required)

/-- The arguments of a call with a value for each required option. -/
def sampleArguments (command : Command) : List String :=
  (if command.verb.targetsExisting then [sampleId] else []) ++
    command.requiredOptions.flatMap fun option =>
      plainLiteral option.flag :: ((sample option.described.type).1.map plainLiteral).toList

/-- What the sample arguments are parsed to. -/
def sampleParsed (command : Command) : List String :=
  let parsed := if command.verb = .delete then "[" ++ sampleId ++ "]" else sampleId
  (if command.verb.targetsExisting then
    ["(" ++ plainLiteral command.resource ++ ", " ++ parsed ++ ")"] else []) ++
    command.requiredOptions.map fun option =>
      "(" ++ plainLiteral option.destination ++ ", " ++ (sample option.described.type).2 ++ ")"

/-- The attributes that the samples give to a new resource. -/
def sampleAttributes (command : Command) : List String :=
  command.requiredOptions.map fun option =>
    plainLiteral option.name ++ ": " ++ (sample option.described.type).2

/-! ### Tests -/

/-- The lines that check how the client was called. -/
def assertionLines (command : Command) : List String :=
  let asserted := "        self.client."
  let resource := command.resource
  match command.verb with
  | .list => [asserted ++ command.plural ++ ".assert_called_once_with()"]
  | .showItem =>
    [asserted ++ "find_" ++ resource ++ ".assert_called_once_with(" ++ sampleId ++
      ", ignore_missing=False)"]
  | .create =>
    [asserted ++ "create_" ++ resource ++ ".assert_called_once_with(**\x7b" ++
      join ", " command.sampleAttributes ++ "\x7d)"]
  | .delete =>
    [asserted ++ "delete_" ++ resource ++ ".assert_called_once_with(",
      "            self.client.find_" ++ resource ++ ".return_value", "        )"]
  | .set | .unset => [asserted ++ "update_" ++ resource ++ ".assert_not_called()"]

/-- All lines of the test of a command. -/
def testLines (command : Command) : List String :=
  let verb := command.verb.name
  ["\"\"\"Tests for the \x60\x60" ++ command.noun ++ " " ++ verb ++ "\x60\x60 command.\"\"\"", "",
    "from unittest import mock", "",
    "from openstackclient." ++ command.service ++ "." ++ command.version ++ "." ++
      command.resource ++ " import " ++ verb ++ " as command_module",
    "from openstackclient.tests.unit import utils as tests_utils", "", "",
    "class Test" ++ command.className ++ "(tests_utils.TestCommand):", "    def setUp(self):",
    "        super().setUp()", "        self.app.client_manager.sdk_connection = mock.Mock()",
    "        self.client = self.app.client_manager.sdk_connection." ++ command.service,
    "        self.cmd = command_module." ++ command.className ++ "(self.app, None)", "",
    "    def test_take_action(self):",
    "        arglist = [" ++ join ", " command.sampleArguments ++ "]",
    "        verifylist = [" ++ join ", " command.sampleParsed ++ "]",
    "        parsed_args = self.check_parser(self.cmd, arglist, verifylist)",
    "        self.cmd.take_action(parsed_args)"] ++
    command.assertionLines

/-- The module with the test of the command. -/
def test (command : Command) : String := ofLines command.testLines

end Command

/-- The files of a resource: a command and its test for each verb that it allows. -/
def generate (request : ResourceRequest) : List File :=
  (Verb.allowed request.descriptor).flatMap fun verb =>
    let command := Command.ofRequest request verb
    [{ path := command.directory ++ "/" ++ verb.name ++ ".py"
       language := .python
       contents := command.source },
      { path := "tests/unit/" ++ command.directory ++ "/test_" ++ verb.name ++ ".py"
        language := .python
        contents := command.test }]

end ServiceForge.Osc
