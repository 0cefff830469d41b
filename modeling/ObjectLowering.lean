import ObjectLowering.Artifact.BucketStore
import ObjectLowering.Artifact.DirectoryStore
import ObjectLowering.Artifact.MemoryStore
import ObjectLowering.Artifact.Sidecar
import ObjectLowering.Artifact.Sink
import ObjectLowering.Artifact.SourceFile
import ObjectLowering.Artifact.Store
import ObjectLowering.Artifact.Writer
import ObjectLowering.Code.Identifier
import ObjectLowering.Code.Primitive
import ObjectLowering.Code.Stream
import ObjectLowering.Command.Arguments
import ObjectLowering.Command.Console
import ObjectLowering.Command.Flag
import ObjectLowering.Config.Layers
import ObjectLowering.Config.Load
import ObjectLowering.Config.Settings
import ObjectLowering.Config.Weak
import ObjectLowering.Data.Calendar
import ObjectLowering.Data.Decimal
import ObjectLowering.Data.Dotenv
import ObjectLowering.Data.Entries
import ObjectLowering.Data.JsonPrinter
import ObjectLowering.Data.JsonReader
import ObjectLowering.Data.Slots
import ObjectLowering.Data.Strict
import ObjectLowering.Data.Toml
import ObjectLowering.Data.Toml.Outline
import ObjectLowering.Data.Toml.Quoted
import ObjectLowering.Data.Toml.Scalar
import ObjectLowering.Data.Value
import ObjectLowering.Data.Yaml
import ObjectLowering.Data.Yaml.Cursor
import ObjectLowering.Data.Yaml.Dialect
import ObjectLowering.Data.Yaml.Key
import ObjectLowering.Data.Yaml.Node
import ObjectLowering.Data.Yaml.Resolve
import ObjectLowering.Data.Yaml.Scalar
import ObjectLowering.Data.Yaml.Timestamp
import ObjectLowering.Data.Yaml.Token
import ObjectLowering.Data.Yaml.TokenStream
import ObjectLowering.Digest.Bytes
import ObjectLowering.Digest.Crc
import ObjectLowering.Digest.Sha
import ObjectLowering.Digest.Uuid
import ObjectLowering.Digest.XxHash
import ObjectLowering.Files.Content
import ObjectLowering.Files.Tree
import ObjectLowering.Layering
import ObjectLowering.Lowering.Accessor
import ObjectLowering.Lowering.Batch
import ObjectLowering.Lowering.CodeUnit
import ObjectLowering.Lowering.Counters
import ObjectLowering.Lowering.Family
import ObjectLowering.Lowering.Features
import ObjectLowering.Lowering.IdTable
import ObjectLowering.Lowering.Level
import ObjectLowering.Lowering.Location
import ObjectLowering.Lowering.Lower
import ObjectLowering.Lowering.Machine
import ObjectLowering.Lowering.MachineCode
import ObjectLowering.Lowering.Storage
import ObjectLowering.Main
import ObjectLowering.Model.Aggregation
import ObjectLowering.Model.Builder
import ObjectLowering.Model.Diagnostic
import ObjectLowering.Model.Document
import ObjectLowering.Model.DocumentReader
import ObjectLowering.Model.Element
import ObjectLowering.Model.Kind
import ObjectLowering.Model.Multiplicity
import ObjectLowering.Model.Outline
import ObjectLowering.Model.Prepare
import ObjectLowering.Model.Qualifier
import ObjectLowering.Model.Reference
import ObjectLowering.Model.Registry
import ObjectLowering.Model.Repository
import ObjectLowering.Model.Validate
import ObjectLowering.Proofs.AccessorWalks
import ObjectLowering.Proofs.Accessors
import ObjectLowering.Proofs.Accounting
import ObjectLowering.Proofs.Attachment
import ObjectLowering.Proofs.Balance
import ObjectLowering.Proofs.Baselines
import ObjectLowering.Proofs.Batches
import ObjectLowering.Proofs.Blocks
import ObjectLowering.Proofs.Branches
import ObjectLowering.Proofs.Claims
import ObjectLowering.Proofs.ClassFilter
import ObjectLowering.Proofs.Collecting
import ObjectLowering.Proofs.Completion
import ObjectLowering.Proofs.Conditions
import ObjectLowering.Proofs.Confinement
import ObjectLowering.Proofs.ConstantNames
import ObjectLowering.Proofs.ContractMetadata
import ObjectLowering.Proofs.Deletions
import ObjectLowering.Proofs.Deployments
import ObjectLowering.Proofs.DepthFirst
import ObjectLowering.Proofs.Dispatch
import ObjectLowering.Proofs.Drift
import ObjectLowering.Proofs.DryRuns
import ObjectLowering.Proofs.Entering
import ObjectLowering.Proofs.Entries
import ObjectLowering.Proofs.Enumerators
import ObjectLowering.Proofs.Execution
import ObjectLowering.Proofs.FailedPuts
import ObjectLowering.Proofs.Families
import ObjectLowering.Proofs.FileNames
import ObjectLowering.Proofs.Fingerprints
import ObjectLowering.Proofs.Flattening
import ObjectLowering.Proofs.FunctionBodies
import ObjectLowering.Proofs.Functions
import ObjectLowering.Proofs.Generalizations
import ObjectLowering.Proofs.Headers
import ObjectLowering.Proofs.Histories
import ObjectLowering.Proofs.IdentifierForm
import ObjectLowering.Proofs.Identifiers
import ObjectLowering.Proofs.Ids
import ObjectLowering.Proofs.JsonRoundTrip
import ObjectLowering.Proofs.KeyPaths
import ObjectLowering.Proofs.LevelNames
import ObjectLowering.Proofs.Loading
import ObjectLowering.Proofs.Locations
import ObjectLowering.Proofs.Lowering
import ObjectLowering.Proofs.Marshalling
import ObjectLowering.Proofs.MemberIdentifiers
import ObjectLowering.Proofs.MemberPaths
import ObjectLowering.Proofs.Nesting
import ObjectLowering.Proofs.NodePaths
import ObjectLowering.Proofs.Orders
import ObjectLowering.Proofs.Ownership
import ObjectLowering.Proofs.Paths
import ObjectLowering.Proofs.ReadOnly
import ObjectLowering.Proofs.References
import ObjectLowering.Proofs.Routes
import ObjectLowering.Proofs.RowKinds
import ObjectLowering.Proofs.RowOrder
import ObjectLowering.Proofs.SameStores
import ObjectLowering.Proofs.ScriptLines
import ObjectLowering.Proofs.Selections
import ObjectLowering.Proofs.Sources
import ObjectLowering.Proofs.Statements
import ObjectLowering.Proofs.StoreOrder
import ObjectLowering.Proofs.StoreSteps
import ObjectLowering.Proofs.StoreTwins
import ObjectLowering.Proofs.Stores
import ObjectLowering.Proofs.TableNames
import ObjectLowering.Proofs.Transitions
import ObjectLowering.Proofs.TypeNames
import ObjectLowering.Proofs.Unfolding
import ObjectLowering.Proofs.Violations
import ObjectLowering.Proofs.Walking
import ObjectLowering.Report.Contract
import ObjectLowering.Report.Fingerprint
import ObjectLowering.Report.IdText
import ObjectLowering.Report.Metadata
import ObjectLowering.Run.CounterFile
import ObjectLowering.Run.Failure
import ObjectLowering.Run.Generate
import ObjectLowering.Run.Log
import ObjectLowering.Run.Source
import ObjectLowering.Schema.Deployment
import ObjectLowering.Schema.Dialect
import ObjectLowering.Schema.Script
import ObjectLowering.Schema.Statements
import ObjectLowering.Schema.Table
import ObjectLowering.Text.Base64
import ObjectLowering.Text.Blank
import ObjectLowering.Text.Casing
import ObjectLowering.Text.Distance
import ObjectLowering.Text.Escape
import ObjectLowering.Text.Hex
import ObjectLowering.Text.Letter
import ObjectLowering.Text.Markup
import ObjectLowering.Text.Numeral
import ObjectLowering.Text.Order
import ObjectLowering.Text.Parts
import ObjectLowering.Text.Path
import ObjectLowering.Text.Printable
import ObjectLowering.Text.Quoted
import ObjectLowering.Text.Stretch
import ObjectLowering.Text.Utf8
