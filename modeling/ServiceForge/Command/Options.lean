/-
This file reads the arguments of the command line. An option takes its value after
an equals sign or from the next argument, which may not look like an option, and
stands at most once.
-/

import ServiceForge.Project.Request

namespace ServiceForge.Command

open ServiceForge.Project (Request)
open ServiceForge.Text

/-- What the command line asks for. -/
structure Options where
  request : Request
  config : Option String := none
  validate : Bool := false
deriving Repr

/-- Why the arguments are not read to their end. -/
inductive Stop where
  | help
  | version
  | misuse
deriving DecidableEq, Repr

/-! ### Options with values -/

/-- The options that take a value. -/
inductive OptionName where
  | target
  | metadata
  | workDirectory
  | openapiSpec
  | operation
  | service
  | apiVersion
  | serviceFilter
  | resourceFilter
  | descriptors
  | className
  | routeMap
  | prose
  | config
deriving DecidableEq, Repr

namespace OptionName

/-- All options that take a value. -/
def all : List OptionName :=
  [target, metadata, workDirectory, openapiSpec, operation, service, apiVersion, serviceFilter,
    resourceFilter, descriptors, className, routeMap, prose, config]

/-- The name that an option is given by. -/
def name : OptionName → String
  | target => "target"
  | metadata => "metadata"
  | workDirectory => "work-dir"
  | openapiSpec => "openapi-yaml-spec"
  | operation => "openapi-operation-id"
  | service => "service-type"
  | apiVersion => "api-version"
  | serviceFilter => "service"
  | resourceFilter => "resource"
  | descriptors => "module"
  | className => "class-name"
  | routeMap => "route-map"
  | prose => "prose"
  | config => "config"

/-- The option with a name. -/
def ofName? (name : String) : Option OptionName := all.find? (·.name = name)

/-- Whether the value is a path, which may not be empty. -/
def takesPath (option : OptionName) : Bool :=
  [metadata, workDirectory, openapiSpec, descriptors, routeMap, prose, config].contains option

/-- The options that have to be given together with an option. -/
def requires : OptionName → List OptionName
  | operation => [openapiSpec]
  | descriptors => [className]
  | className => [descriptors]
  | prose => [routeMap]
  | _ => []

/-- Whether a value may be given for an option. -/
def accepts (option : OptionName) (value : String) : Bool :=
  if option = target then (Target.ofName? value).isSome
  else !(option.takesPath && value.isEmpty)

end OptionName

/-! ### Reading -/

/-- What has been read so far. -/
structure Given where
  values : List (OptionName × String) := []
  validate : Bool := false
deriving Repr

namespace Given

/-- Whether an option is given already. -/
def has (given : Given) (option : OptionName) : Bool := (given.values.lookup option).isSome

/-- Gives an option its value, which can be done only once. -/
def set (given : Given) (option : OptionName) (value : String) : Except Stop Given :=
  if given.has option || !option.accepts value then throw .misuse
  else return { given with values := given.values ++ [(option, value)] }

/-- Asks for a validation, which can be done only once. -/
def setValidate (given : Given) : Except Stop Given :=
  if given.validate then throw .misuse else return { given with validate := true }

end Given

/-- Whether an argument looks like an option. -/
def isOption (argument : String) : Bool := startsWith "-" argument && argument ≠ "-"

/-- What an argument does by itself: it is complete, or the next one is its value. -/
inductive Step where
  | done (given : Given)
  | awaits (option : OptionName)

/-- Reads an argument that begins with two dashes. -/
def longOption (given : Given) (text : String) : Except Stop Step :=
  match splitOnce? '=' text with
  | some (name, value) =>
    match OptionName.ofName? name with
    | some option => return .done (← given.set option value)
    | none => throw .misuse
  | none =>
    match OptionName.ofName? text with
    | some option => return .awaits option
    | none =>
      if text = "validate" then return .done (← given.setValidate)
      else if text = "verbose" then return .done given
      else if text = "help" then throw .help
      else if text = "version" then throw .version
      else throw .misuse

/-- Reads the letters after one dash. A letter for an option with a value ends them; the rest is
its value. -/
def shortOptions (given : Given) : List Char → Except Stop Step
  | [] => return .done given
  | letter :: rest =>
    if letter = 'v' then shortOptions given rest
    else if letter = 'h' then throw .help
    else if letter = 'V' then throw .version
    else if letter = 'c' then
      match rest with
      | [] => return .awaits .config
      | '=' :: value => return .done (← given.set .config (String.ofList value))
      | value => return .done (← given.set .config (String.ofList value))
    else throw .misuse

/-- Reads one argument that is not the value of another one. -/
def readArgument (given : Given) (argument : String) : Except Stop Step :=
  match argument.toList with
  | '-' :: '-' :: name => longOption given (String.ofList name)
  | '-' :: letter :: letters => shortOptions given (letter :: letters)
  | _ => throw .misuse

/-- Reads arguments, the first of which may be the value of an option. Nothing may follow two
dashes alone. -/
def readArguments (given : Given) (awaited : Option OptionName) :
    List String → Except Stop Given
  | [] => if awaited.isSome then throw .misuse else return given
  | argument :: rest =>
    match awaited with
    | some option =>
      if isOption argument then throw .misuse
      else do readArguments (← given.set option argument) none rest
    | none =>
      if argument = "--" then
        if rest.isEmpty then return given else throw .misuse
      else do
        match ← readArgument given argument with
        | .done given => readArguments given none rest
        | .awaits option => readArguments given (some option) rest

/-- The options that the arguments give. A target is needed, and some options need others. -/
def Options.ofArguments (arguments : List String) : Except Stop Options := do
  let given ← readArguments {} none arguments
  unless given.values.all fun (option, _) => option.requires.all given.has do throw .misuse
  let value? (option : OptionName) : Option String := given.values.lookup option
  match (value? .target).bind Target.ofName? with
  | none => throw .misuse
  | some target =>
    return {
      request := {
        target
        workDirectory := (value? .workDirectory).getD "."
        metadata := value? .metadata
        openapiSpec := value? .openapiSpec
        operation := value? .operation
        service := value? .service
        apiVersion := value? .apiVersion
        serviceFilter := value? .serviceFilter
        resourceFilter := value? .resourceFilter
        descriptors := value? .descriptors
        className := value? .className
        routeMap := value? .routeMap
        prose := value? .prose }
      config := value? .config
      validate := given.validate }

end ServiceForge.Command
