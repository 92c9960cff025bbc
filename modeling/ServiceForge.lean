import ServiceForge.Ansible.Basic
import ServiceForge.Ansible.Source
import ServiceForge.Classification
import ServiceForge.Cli.Context
import ServiceForge.Cli.Source
import ServiceForge.Command.Basic
import ServiceForge.Command.Options
import ServiceForge.Descriptor.Basic
import ServiceForge.Descriptor.Derivation
import ServiceForge.Descriptor.Document
import ServiceForge.Descriptor.JsonSchema
import ServiceForge.Descriptor.Verb
import ServiceForge.Document.Reader
import ServiceForge.Document.Untyped
import ServiceForge.Document.Value
import ServiceForge.Document.Writer
import ServiceForge.FilePath
import ServiceForge.Generation.Bindings
import ServiceForge.Generation.File
import ServiceForge.Generation.Media
import ServiceForge.Generation.ModuleIndex
import ServiceForge.Generation.Request
import ServiceForge.Generation.Resource
import ServiceForge.Generation.Variant
import ServiceForge.GenerationError
import ServiceForge.Json.Basic
import ServiceForge.Json.Printer
import ServiceForge.Kind
import ServiceForge.Lowering.Basic
import ServiceForge.Lowering.Merge
import ServiceForge.Lowering.Rendering
import ServiceForge.Lowering.State
import ServiceForge.Lowering.Types
import ServiceForge.Main
import ServiceForge.Metadata.Basic
import ServiceForge.Metadata.Document
import ServiceForge.Metadata.Synthesis
import ServiceForge.Naming
import ServiceForge.Number.Basic
import ServiceForge.Number.Binary64
import ServiceForge.OpenApi.Loading
import ServiceForge.OpenApi.Method
import ServiceForge.OpenApi.Reference
import ServiceForge.OpenApi.Schema.Basic
import ServiceForge.OpenApi.Schema.Document
import ServiceForge.OpenApi.Schema.Size
import ServiceForge.OpenApi.Spec.Basic
import ServiceForge.OpenApi.Spec.Document
import ServiceForge.OpenApi.Spec.Equality
import ServiceForge.OrderedMap
import ServiceForge.Osc.Source
import ServiceForge.Osc.Test
import ServiceForge.Project.Config
import ServiceForge.Project.Error
import ServiceForge.Project.Execution
import ServiceForge.Project.Plan
import ServiceForge.Project.Request
import ServiceForge.Project.Session
import ServiceForge.Proofs.Lowering.Calls
import ServiceForge.Proofs.Lowering.Containment
import ServiceForge.Proofs.Lowering.Denotation
import ServiceForge.Proofs.Lowering.Step
import ServiceForge.Proofs.Reference.Observation
import ServiceForge.Proofs.Reference.Outcome
import ServiceForge.Proofs.Reference.Pointer
import ServiceForge.Proofs.Reference.Resolution
import ServiceForge.Resource.Id
import ServiceForge.Resource.Path
import ServiceForge.Resource.Schema
import ServiceForge.Route.Basic
import ServiceForge.Route.Document
import ServiceForge.Route.Extraction
import ServiceForge.Sdk.Context
import ServiceForge.Sdk.Source
import ServiceForge.SortedSet
import ServiceForge.Source.Literal
import ServiceForge.Source.Text
import ServiceForge.Target
import ServiceForge.Text.Alphanumeric
import ServiceForge.Text.Basic
import ServiceForge.Text.CodePoints
import ServiceForge.Text.LetterCase
import ServiceForge.Text.Printable
import ServiceForge.Text.Words
import ServiceForge.Workspace
import ServiceForge.Yaml.Cursor
import ServiceForge.Yaml.Node
import ServiceForge.Yaml.Printer
import ServiceForge.Yaml.Scalar
import ServiceForge.Yaml.Token
import ServiceForge.Yaml.Token.Scalar
import ServiceForge.Yaml.Token.Scanner
import ServiceForge.Yaml.Tree
import ServiceForge.Proofs.ModuleIndex
import ServiceForge.Proofs.Lowering.Active
import ServiceForge.Proofs.Text.Words
import ServiceForge.Proofs.Lowering.Borrowing
import ServiceForge.Proofs.Text.SnakeCase
import ServiceForge.Proofs.Classification
import ServiceForge.Proofs.Generation.Variant
import ServiceForge.Proofs.Metadata.Entries
import ServiceForge.Proofs.Sdk.Context
import ServiceForge.Proofs.Project.Pairs
import ServiceForge.Proofs.Project.Modes
import ServiceForge.Proofs.Reference.Evaluation
import ServiceForge.Proofs.Reference.Termination
import ServiceForge.Proofs.Json
import ServiceForge.Proofs.Reference.Dangling
import ServiceForge.Proofs.Reference.Values
import ServiceForge.Proofs.Document.Untyped
import ServiceForge.Proofs.Reference.Remaining
import ServiceForge.Proofs.Spec.Reading
import ServiceForge.Proofs.Lowering.Components
import ServiceForge.Proofs.Spec.References
import ServiceForge.Proofs.Schema.Size
import ServiceForge.Proofs.Lowering.Names
import ServiceForge.Proofs.Lowering.Merging
import ServiceForge.Proofs.Lowering.Agreement
import ServiceForge.Proofs.Lowering.Termination
import ServiceForge.Proofs.Lowering.Imports
import ServiceForge.Proofs.Lowering.Repetition
import ServiceForge.Proofs.Lowering.Fields
import ServiceForge.Proofs.Lowering.SinglePart
import ServiceForge.Proofs.Lowering.Mirroring
import ServiceForge.Proofs.Metadata.Conflicts
import ServiceForge.Proofs.Metadata.Representation
import ServiceForge.Proofs.Metadata.PathOrder
import ServiceForge.Proofs.Document.Lossless
import ServiceForge.Proofs.Sdk.Variant
import ServiceForge.Proofs.Sdk.Body
import ServiceForge.Proofs.Cli.Setters
import ServiceForge.Proofs.Generation.Lookups
import ServiceForge.Proofs.Project.Runs
import ServiceForge.Proofs.Project.Validation
import ServiceForge.Proofs.Project.Services
import ServiceForge.Proofs.Project.Roots
import ServiceForge.Proofs.Route.Extraction
import ServiceForge.Proofs.Descriptor.Schemas
import ServiceForge.Proofs.Descriptor.Merging
import ServiceForge.Proofs.Route.Identity
import ServiceForge.Proofs.Schema.Equivalence
import ServiceForge.Proofs.Route.Versions
import ServiceForge.Proofs.Document.Restoring
import ServiceForge.Proofs.Schema.Restoring
import ServiceForge.Proofs.Spec.Restoring
import ServiceForge.Proofs.Spec.Settled
import ServiceForge.Proofs.Route.Settled
import ServiceForge.Proofs.Route.Loading
import ServiceForge.Proofs.Sdk.MemberNames
import ServiceForge.Proofs.Sdk.Endpoint
import ServiceForge.Proofs.Generation.VariantPaths
import ServiceForge.Proofs.Project.LookupCalls
import ServiceForge.Proofs.Sdk.Parameters
import ServiceForge.Proofs.Lowering.VariantNames
import ServiceForge.Proofs.Lowering.CommaSeparated
import ServiceForge.Proofs.Text.TypeNames
import ServiceForge.Proofs.Lowering.AskedNames
import ServiceForge.Proofs.Lowering.GivenNames
import ServiceForge.Proofs.Lowering.UsableNames
import ServiceForge.Proofs.Text.Alphanumeric
import ServiceForge.Proofs.Resource.Path
import ServiceForge.Proofs.FilePath.Absolute
import ServiceForge.Proofs.Project.SpecFile
import ServiceForge.Proofs.Descriptor.Coverage
import ServiceForge.Proofs.Generation.ModuleNames
