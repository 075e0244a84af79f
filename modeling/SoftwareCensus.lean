import SoftwareCensus.Catalog.Signature
import SoftwareCensus.Cli.Arguments
import SoftwareCensus.Cli.Commands
import SoftwareCensus.Cli.ExitCode
import SoftwareCensus.Cli.Help
import SoftwareCensus.Cli.Log
import SoftwareCensus.Cli.Logging
import SoftwareCensus.Config.Load
import SoftwareCensus.Config.RunSettings
import SoftwareCensus.Config.Snapshot
import SoftwareCensus.Config.Sources
import SoftwareCensus.Config.TaskList
import SoftwareCensus.Detection.Enrichment
import SoftwareCensus.Detection.Finalizing
import SoftwareCensus.Detection.Matching
import SoftwareCensus.Digest.Sha256
import SoftwareCensus.Discovery.Run
import SoftwareCensus.Document.Basic
import SoftwareCensus.Document.Decode
import SoftwareCensus.Document.Json.Printer
import SoftwareCensus.Document.Json.Reader
import SoftwareCensus.Document.Merge
import SoftwareCensus.Document.Path
import SoftwareCensus.Document.Shape
import SoftwareCensus.Document.Source
import SoftwareCensus.Document.Toml.Reader
import SoftwareCensus.Document.Toml.Scalar
import SoftwareCensus.Document.Toml.Table
import SoftwareCensus.Document.Yaml.Cursor
import SoftwareCensus.Document.Yaml.Printer
import SoftwareCensus.Document.Yaml.Reader
import SoftwareCensus.Document.Yaml.Token
import SoftwareCensus.Failure
import SoftwareCensus.Files.PathText
import SoftwareCensus.Files.Tree
import SoftwareCensus.Host.Container
import SoftwareCensus.Host.Forest
import SoftwareCensus.Host.Inventory
import SoftwareCensus.Host.Pid
import SoftwareCensus.Main
import SoftwareCensus.Numeral.Binary64
import SoftwareCensus.Numeral.Decimal
import SoftwareCensus.Plugin.Arguments
import SoftwareCensus.Plugin.Basic
import SoftwareCensus.Plugin.Checks
import SoftwareCensus.Plugin.Entries
import SoftwareCensus.Plugin.Facts
import SoftwareCensus.Plugin.Registry
import SoftwareCensus.Plugin.Search
import SoftwareCensus.Proofs.Detection.AncestorChain
import SoftwareCensus.Proofs.Detection.ListingOrder
import SoftwareCensus.Proofs.Detection.Partition
import SoftwareCensus.Proofs.Detection.Sorting
import SoftwareCensus.Proofs.Detection.Pass
import SoftwareCensus.Proofs.Discovery.Accounting
import SoftwareCensus.Proofs.Discovery.Sweep
import SoftwareCensus.Proofs.Document.Entries
import SoftwareCensus.Proofs.Host.ForestLinks
import SoftwareCensus.Proofs.Host.ForestWalk
import SoftwareCensus.Proofs.Host.ListingOrder
import SoftwareCensus.Proofs.Host.PidOrder
import SoftwareCensus.Proofs.Tasks.FatalErrors
import SoftwareCensus.Proofs.Tasks.PluginCalls
import SoftwareCensus.Proofs.Tasks.RunLaw
import SoftwareCensus.Proofs.Tasks.Scoping
import SoftwareCensus.Regex.Basic
import SoftwareCensus.Regex.Fault
import SoftwareCensus.Regex.Program
import SoftwareCensus.Regex.Reader
import SoftwareCensus.Regex.Replacement
import SoftwareCensus.Tasks.Check
import SoftwareCensus.Tasks.Context
import SoftwareCensus.Tasks.Definition
import SoftwareCensus.Tasks.Error
import SoftwareCensus.Tasks.Interpreter
import SoftwareCensus.Template.Arguments
import SoftwareCensus.Template.Eval
import SoftwareCensus.Template.Expr
import SoftwareCensus.Template.Fault
import SoftwareCensus.Template.Filter
import SoftwareCensus.Template.Filter.Facts
import SoftwareCensus.Template.Filter.Sequence
import SoftwareCensus.Template.Filter.Text
import SoftwareCensus.Template.Format
import SoftwareCensus.Template.Method
import SoftwareCensus.Template.Operator
import SoftwareCensus.Template.Reader
import SoftwareCensus.Template.Render
import SoftwareCensus.Template.Store
import SoftwareCensus.Template.Test
import SoftwareCensus.Template.Token
import SoftwareCensus.Template.Value
import SoftwareCensus.Text.Case
import SoftwareCensus.Text.Category
import SoftwareCensus.Text.CharSet
import SoftwareCensus.Text.Pieces
import SoftwareCensus.Text.Timestamp
import SoftwareCensus.Proofs.Discovery.Isolation
import SoftwareCensus.Proofs.Discovery.Retraction
import SoftwareCensus.Proofs.Tasks.Pairing
import SoftwareCensus.Proofs.Tasks.Grouping
import SoftwareCensus.Proofs.Document.Ordered
import SoftwareCensus.Proofs.Tasks.StaticCheck
import SoftwareCensus.Proofs.Discovery.Foresight
import SoftwareCensus.Proofs.Discovery.Leniency
import SoftwareCensus.Proofs.Template.MissingVariables
import SoftwareCensus.Proofs.Plugin.Assertions
import SoftwareCensus.Proofs.Document.Presented
import SoftwareCensus.Proofs.Host.InventoryRoundTrip
import SoftwareCensus.Proofs.Document.JsonNumbers
import SoftwareCensus.Proofs.Document.JsonText
import SoftwareCensus.Proofs.Host.ForestRecords
import SoftwareCensus.Proofs.Host.ForestTrees
import SoftwareCensus.Proofs.Host.ForestSockets
import SoftwareCensus.Proofs.Detection.Attribution
import SoftwareCensus.Proofs.Detection.Enrichment
import SoftwareCensus.Proofs.Document.Equality
import SoftwareCensus.Proofs.Document.Merging
import SoftwareCensus.Proofs.Document.Remerging
import SoftwareCensus.Proofs.Tasks.Loops
import SoftwareCensus.Proofs.Tasks.Invocations
import SoftwareCensus.Proofs.Tasks.Environment
import SoftwareCensus.Proofs.Document.Overlaying
import SoftwareCensus.Proofs.Document.PathText
import SoftwareCensus.Proofs.Document.Places
import SoftwareCensus.Proofs.Document.Removing
import SoftwareCensus.Proofs.Document.Writing
import SoftwareCensus.Proofs.Template.Combining
import SoftwareCensus.Proofs.Template.Conditions
import SoftwareCensus.Proofs.Template.Values
import SoftwareCensus.Proofs.Text.Trimming
import SoftwareCensus.Proofs.Plugin.Arguments
import SoftwareCensus.Proofs.Plugin.Recording
import SoftwareCensus.Proofs.Host.Containers
import SoftwareCensus.Proofs.Host.Proxies
import SoftwareCensus.Proofs.Detection.Finalizing
import SoftwareCensus.Proofs.Tasks.Acceptance
import SoftwareCensus.Proofs.Document.Preorder
import SoftwareCensus.Proofs.Plugin.Occurrences
import SoftwareCensus.Proofs.Template.Flattening
import SoftwareCensus.Proofs.Config.Ladder
import SoftwareCensus.Proofs.Cli.ConfigurationSources
import SoftwareCensus.Proofs.Numeral.Naturals
import SoftwareCensus.Proofs.Host.PidNumbers
import SoftwareCensus.Proofs.Regex.Replacement
