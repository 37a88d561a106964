import HandlerRegistry.Artifact.CHeader
import HandlerRegistry.Artifact.Kind
import HandlerRegistry.Artifact.RustModule
import HandlerRegistry.Artifact.Template
import HandlerRegistry.Artifact.Write
import HandlerRegistry.Capacity
import HandlerRegistry.CommandLine.Arguments
import HandlerRegistry.CommandLine.Run
import HandlerRegistry.Config.Basic
import HandlerRegistry.Config.Document
import HandlerRegistry.Config.Refusal
import HandlerRegistry.Decimal.Double
import HandlerRegistry.Discovery
import HandlerRegistry.Dispatch.Holder
import HandlerRegistry.Dispatch.Protocols
import HandlerRegistry.Dispatch.Registry
import HandlerRegistry.Dispatch.Request
import HandlerRegistry.Dispatch.Session
import HandlerRegistry.Dispatch.Table
import HandlerRegistry.Failure
import HandlerRegistry.FileTree.Basic
import HandlerRegistry.FileTree.Edit
import HandlerRegistry.FileTree.IoError
import HandlerRegistry.FileTree.Listing
import HandlerRegistry.FileTree.Path
import HandlerRegistry.FileTree.Resolve
import HandlerRegistry.FileTree.Snapshot
import HandlerRegistry.Generate
import HandlerRegistry.Identifier
import HandlerRegistry.Keyed
import HandlerRegistry.Text.Hex
import HandlerRegistry.Text.Numeral
import HandlerRegistry.Text.Quoted
import HandlerRegistry.Text.Shown
import HandlerRegistry.Text.Split
import HandlerRegistry.Text.Utf8
import HandlerRegistry.Text.Utf8.Lemmas
import HandlerRegistry.Toml.Document
import HandlerRegistry.Toml.Quotation
import HandlerRegistry.Toml.Scalar
import HandlerRegistry.Toml.Scan
import HandlerRegistry.Toml.Table
import HandlerRegistry.Toml.Value
import HandlerRegistry.Main
import HandlerRegistry.Proofs.Artifact.Declarations
import HandlerRegistry.Proofs.Artifact.HeaderText
import HandlerRegistry.Proofs.Artifact.ModuleText
import HandlerRegistry.Proofs.Artifact.Rendering
import HandlerRegistry.Proofs.Artifact.Replacement
import HandlerRegistry.Proofs.Discovery.Collect
import HandlerRegistry.Proofs.Discovery.Denotes
import HandlerRegistry.Proofs.Discovery.Exact
import HandlerRegistry.Proofs.Discovery.Order
import HandlerRegistry.Proofs.Dispatch.Table
import HandlerRegistry.Proofs.FileTree.Changes
import HandlerRegistry.Proofs.FileTree.Children
import HandlerRegistry.Proofs.FileTree.Entry
import HandlerRegistry.Proofs.FileTree.Files
import HandlerRegistry.Proofs.FileTree.Walk
import HandlerRegistry.Proofs.Generate.BuiltTable
import HandlerRegistry.Proofs.Generate.Effect
import HandlerRegistry.Proofs.Generate.Repeated
import HandlerRegistry.Proofs.Identifier
import HandlerRegistry.Proofs.Keyed
import HandlerRegistry.Proofs.Text.Lines
import HandlerRegistry.Proofs.Text.Literal
import HandlerRegistry.Proofs.Text.Marks
import HandlerRegistry.Proofs.Text.Utf8
import HandlerRegistry.Proofs.Config.Layer
import HandlerRegistry.Proofs.Dispatch.Holder
import HandlerRegistry.Proofs.CommandLine.Arguments
import HandlerRegistry.Proofs.CommandLine.Configuration
import HandlerRegistry.Proofs.Discovery.Hidden
import HandlerRegistry.Proofs.FileTree.Relative
import HandlerRegistry.Proofs.Generate.ModulePaths
import HandlerRegistry.Proofs.Traversal
import HandlerRegistry.Proofs.Generate.HeaderNames
import HandlerRegistry.Proofs.Generate.Dependencies
import HandlerRegistry.Proofs.Dispatch.Accounting
import HandlerRegistry.Proofs.Toml.Table
import HandlerRegistry.Proofs.Toml.Scanning
import HandlerRegistry.Proofs.Toml.Quotation
import HandlerRegistry.Proofs.Toml.Value
import HandlerRegistry.Proofs.Toml.Spelling
import HandlerRegistry.Proofs.Toml.Lines
import HandlerRegistry.Proofs.Config.Written
import HandlerRegistry.Proofs.Artifact.Refusals
import HandlerRegistry.Proofs.Artifact.Successive
import HandlerRegistry.Proofs.Dispatch.FiniteMap
import HandlerRegistry.Proofs.Generate.ModuleSources
import HandlerRegistry.Proofs.Dispatch.Schemes
import HandlerRegistry.Proofs.Capacity
import HandlerRegistry.Proofs.Config.CapacityKey
import HandlerRegistry.Proofs.Identifier.Pattern
import HandlerRegistry.Proofs.CommandLine.CapacityTexts
import HandlerRegistry.Proofs.Artifact.KindOfPath
import HandlerRegistry.Proofs.Dispatch.Progress
