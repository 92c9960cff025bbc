/-
This file writes the modules that automate a cloud: the blocks of documentation,
the argument specification, which agrees with the documented options, and the
run, which asks the client of the service.
-/

import ServiceForge.Ansible.Basic
import ServiceForge.Source.Literal
import ServiceForge.Source.Text
import ServiceForge.Yaml.Printer

namespace ServiceForge.Ansible

open ServiceForge.Descriptor (AttributeType Verb VerbOption)
open ServiceForge.Generation
open ServiceForge.Source
open ServiceForge.Text

namespace Module

/-! ### Blocks of documentation -/

/-- A value of an attribute in an example. -/
def sampleValue : AttributeType → String
  | .text => "example"
  | .integer => "1"
  | .float => "1.5"
  | .boolean => "true"
  | .list => "[example]"
  | .dictionary => "\x7bkey: value\x7d"
  | .raw => "\x7b\x7d"

/-- A block that holds a document in a variable. -/
def blockLines (name : String) (content : List String) : List String :=
  [name ++ " = r\"\"\""] ++ content ++ ["\"\"\"", ""]

/-- The lines of an example task, with a sample value for every option that is required. -/
def exampleLines (module : Module) : List String :=
  ["- name: " ++ module.shortDescription, "  openstack.cloud." ++ module.name ++ ":",
    "    cloud: devstack"] ++
    (if module.verb.targetsExisting then
      ["    name_or_id: my-" ++ replaceCharacter '_' "-" module.resource] else []) ++
    (module.options.filter (·.required)).map fun option =>
      "    " ++ option.name ++ ": " ++ sampleValue option.described.type

/-- The lines that describe what the module returns, if it returns anything. -/
def returnLines (module : Module) : List String :=
  match module.returnKey? with
  | none => []
  | some key =>
    [key ++ ":", "  description: " ++ module.shortDescription, "  returned: success",
      "  type: " ++ (if module.verb = .list then "list" else "dict")]

/-! ### Class -/

/-- The line that declares an option in the argument specification. -/
def argumentLine (name : String) (doc : OptionDoc) : String :=
  "        " ++ plainLiteral name ++ ": dict(type=" ++ plainLiteral doc.type.name ++
    (if doc.required then ", required=True" else "") ++
    ((doc.elements?.map fun elements => ", elements=" ++ plainLiteral elements).getD "") ++ "),"

/-- The lines of the argument specification. -/
def argumentLines (module : Module) : List String :=
  ["    argument_spec = \x7b"] ++
    module.optionDocs.map (fun (name, doc) => argumentLine name doc) ++
    ["    \x7d", "    module_kwargs = dict(", "        supports_check_mode=True,", "    )", ""]

/-- The names of the options as the members of a tuple. -/
def optionNames (module : Module) : String :=
  match module.options.map fun option => plainLiteral option.name with
  | [single] => single ++ ","
  | names => join ", " names

/-- Collects the values of the options that are given. -/
def collectLines (module : Module) : List String :=
  let (value, condition) :=
    if module.verb = .unset then ("None", "") else ("self.params[key]", " is not None")
  if module.options.isEmpty then []
  else
    ["        attrs = \x7b", "            key: " ++ value,
      "            for key in (" ++ module.optionNames ++ ")",
      "            if self.params[key]" ++ condition, "        \x7d"]

/-! ### Run -/

/-- The arguments of a call that takes the attributes of the task, if there are any. -/
def callArguments (module : Module) : String := if module.options.isEmpty then "" else "**attrs"

/-- The call that finds the resource by its name or id. -/
def findCall (module : Module) (ignoreMissing : String) : String :=
  "proxy.find_" ++ module.resource ++ "(self.params[\"name_or_id\"], ignore_missing=" ++
    ignoreMissing ++ ")"

/-- The result as an argument of the answer. -/
def resultArgument (module : Module) : String :=
  module.resource ++ "=obj.to_dict(computed=False)"

/-- The attributes whose values differ from those of the resource. -/
def changeLines (module : Module) : List String :=
  if module.options.isEmpty then ["        changes = \x7b\x7d"]
  else
    ["        changes = \x7b", "            key: value",
      "            for key, value in attrs.items()",
      "            if getattr(obj, key, None) != value", "        \x7d"]

/-- The lines that carry out the verb of the module. -/
def callLines (module : Module) : List String :=
  match module.verb with
  | .list =>
    ["        data = proxy." ++ module.plural ++ "(" ++ module.callArguments ++ ")",
      "        self.exit_json(", "            changed=False,",
      "            " ++ module.plural ++ "=[item.to_dict(computed=False) for item in data],",
      "        )"]
  | .showItem =>
    ["        obj = " ++ module.findCall "False",
      "        self.exit_json(changed=False, " ++ module.resultArgument ++ ")"]
  | .create =>
    ["        if self.ansible.check_mode:", "            self.exit_json(changed=True)",
      "        obj = proxy.create_" ++ module.resource ++ "(" ++ module.callArguments ++ ")",
      "        self.exit_json(changed=True, " ++ module.resultArgument ++ ")"]
  | .delete =>
    ["        obj = " ++ module.findCall "True", "        if obj is None:",
      "            self.exit_json(changed=False)", "        if not self.ansible.check_mode:",
      "            proxy.delete_" ++ module.resource ++ "(obj)",
      "        self.exit_json(changed=True)"]
  | .set | .unset =>
    ["        obj = " ++ module.findCall "False"] ++
      module.changeLines ++
      ["        if changes and not self.ansible.check_mode:",
        "            obj = proxy.update_" ++ module.resource ++ "(obj, **changes)",
        "        self.exit_json(", "            changed=bool(changes),",
        "            " ++ module.resultArgument ++ ",", "        )"]

/-! ### Modules and tests -/

/-- The source of the module. -/
def source (module : Module) : String :=
  ofLines ["#!/usr/bin/python", "# -*- coding: utf-8 -*-", "", "DOCUMENTATION = r\"\"\"", "---"] ++
    Yaml.render module.documentation ++
    ofLines
      (["\"\"\"", ""] ++
        blockLines "EXAMPLES" module.exampleLines ++
        blockLines "RETURN" module.returnLines ++
        ["from ansible_collections.openstack.cloud.plugins.module_utils.openstack import " ++
            "OpenStackModule", "", "",
          "class " ++ module.className ++ "(OpenStackModule):"] ++
        module.argumentLines ++
        ["    def run(self):", "        proxy = self.conn." ++ module.service] ++
        module.collectLines ++
        module.callLines ++
        ["", "", "def main():", "    module = " ++ module.className ++ "()", "    module()", "", "",
          "if __name__ == \"__main__\":", "    main()"])

/-- The source of the module's test, which compares the documentation with the specification. -/
def test (module : Module) : String :=
  ofLines
    ["\"\"\"Tests for the \x60\x60" ++ module.name ++ "\x60\x60 module.\"\"\"", "",
      "import yaml", "",
      "from ansible_collections.openstack.cloud.plugins.modules import " ++ module.name ++
        " as module_under_test", "", "",
      "def _documentation():",
      "    return yaml.safe_load(module_under_test.DOCUMENTATION)", "", "",
      "def test_documented_options_match_argument_spec():",
      "    documented = _documentation()[\"options\"] or \x7b\x7d",
      "    assert set(documented) == set(module_under_test." ++ module.className ++
        ".argument_spec)", "", "",
      "def test_module_name():",
      "    assert _documentation()[\"module\"] == " ++ plainLiteral module.name]

end Module

/-- The files of a resource: a module and its test for each verb that it allows. -/
def generate (request : ResourceRequest) : List File :=
  (Verb.allowed request.descriptor).flatMap fun verb =>
    let module := Module.ofRequest request verb
    [{ path := "plugins/modules/" ++ module.name ++ ".py"
       language := .python
       contents := module.source },
      { path := "tests/unit/plugins/modules/test_" ++ module.name ++ ".py"
        language := .python
        contents := module.test }]

end ServiceForge.Ansible
