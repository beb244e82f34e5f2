import SymbolIndex.Analysis.Basic
import SymbolIndex.Analysis.Directory
import SymbolIndex.Analysis.Json
import SymbolIndex.CommandLine.Arguments
import SymbolIndex.CommandLine.Options
import SymbolIndex.CommandLine.Run
import SymbolIndex.Diff.Script
import SymbolIndex.Diff.Search
import SymbolIndex.Diff.Slide
import SymbolIndex.Diff.Unified
import SymbolIndex.Elapsed
import SymbolIndex.Entries
import SymbolIndex.FilePath
import SymbolIndex.FilePath.Order
import SymbolIndex.Index.Assembly
import SymbolIndex.Index.Basic
import SymbolIndex.Index.Codec
import SymbolIndex.Index.Draft
import SymbolIndex.Index.Parallel
import SymbolIndex.Index.Store
import SymbolIndex.Index.Wire
import SymbolIndex.Json.Basic
import SymbolIndex.Json.Printer
import SymbolIndex.Json.Reader
import SymbolIndex.Json.Record
import SymbolIndex.Json.Token
import SymbolIndex.Log
import SymbolIndex.Machine.Basic
import SymbolIndex.Machine.FileTree
import SymbolIndex.Machine.Replace
import SymbolIndex.Machine.Session
import SymbolIndex.Main
import SymbolIndex.Naming.Basic
import SymbolIndex.Naming.Error
import SymbolIndex.Package.Basic
import SymbolIndex.Package.Cache
import SymbolIndex.Package.Listing
import SymbolIndex.Package.Origin
import SymbolIndex.Package.Registry
import SymbolIndex.Project.Identity
import SymbolIndex.Project.Resolution
import SymbolIndex.Settings.Basic
import SymbolIndex.Settings.Files
import SymbolIndex.Settings.Reader
import SymbolIndex.Settings.Value
import SymbolIndex.Settings.Variable
import SymbolIndex.Settings.Writer
import SymbolIndex.Snapshot.Callout
import SymbolIndex.Snapshot.CaseIdentities
import SymbolIndex.Snapshot.Golden
import SymbolIndex.Snapshot.Suite
import SymbolIndex.Symbol.Basic
import SymbolIndex.Symbol.Descriptor
import SymbolIndex.Symbol.Ecosystem
import SymbolIndex.Symbol.Json
import SymbolIndex.Text.Blank
import SymbolIndex.Text.Digits
import SymbolIndex.Text.Doubled
import SymbolIndex.Text.Lines
import SymbolIndex.Text.Lossy
import SymbolIndex.Toml.Basic
import SymbolIndex.Toml.Fault
import SymbolIndex.Toml.Literal
import SymbolIndex.Toml.Printer
import SymbolIndex.Toml.Reader
import SymbolIndex.Toml.Reading
import SymbolIndex.Toml.Scalar
import SymbolIndex.Toml.Tables
import SymbolIndex.Proofs.Symbol.Containment
import SymbolIndex.Proofs.Symbol.PackageRoot
import SymbolIndex.Proofs.Symbol.Spelling
import SymbolIndex.Proofs.Index.Assembly
import SymbolIndex.Proofs.Index.Interleaving
import SymbolIndex.Proofs.Index.Wire
import SymbolIndex.Proofs.Index.Codec
import SymbolIndex.Proofs.Index.Store
import SymbolIndex.Proofs.Snapshot.Layout
import SymbolIndex.Proofs.Snapshot.Reading
import SymbolIndex.Proofs.FilePath.Pieces
import SymbolIndex.Proofs.FilePath.Places
import SymbolIndex.Proofs.Machine.Nodes
import SymbolIndex.Proofs.Machine.Following
import SymbolIndex.Proofs.Machine.Changes
import SymbolIndex.Proofs.Machine.Replacing
import SymbolIndex.Proofs.Machine.Listing
import SymbolIndex.Proofs.Machine.Branches
import SymbolIndex.Proofs.Machine.Runs
import SymbolIndex.Proofs.Machine.Twins
import SymbolIndex.Proofs.Fallible
import SymbolIndex.Proofs.Naming.ScopeChain
import SymbolIndex.Proofs.Naming.Roles
import SymbolIndex.Proofs.Naming.Step
import SymbolIndex.Proofs.Naming.Recursion
import SymbolIndex.Proofs.Snapshot.Cases
import SymbolIndex.Proofs.Snapshot.Updating
import SymbolIndex.Proofs.Snapshot.Rechecking
import SymbolIndex.Proofs.Machine.Requests
import SymbolIndex.Proofs.Analysis.Loading
import SymbolIndex.Proofs.ReadOnly
import SymbolIndex.Proofs.Snapshot.Stages
import SymbolIndex.Proofs.Snapshot.Verdict
import SymbolIndex.Proofs.Json.Literals
import SymbolIndex.Proofs.Json.RoundTrip
import SymbolIndex.Proofs.Package.Caching
import SymbolIndex.Proofs.FilePath.Ancestors
import SymbolIndex.Proofs.FilePath.Cleaning
import SymbolIndex.Proofs.FilePath.Sets
import SymbolIndex.Proofs.Package.Attribution
import SymbolIndex.Proofs.Machine.Worlds
import SymbolIndex.Proofs.Machine.Reports
import SymbolIndex.Proofs.Machine.Acceptance
import SymbolIndex.Proofs.Naming.Run
import SymbolIndex.Proofs.Naming.WellFormed
import SymbolIndex.Proofs.Naming.Numbering
import SymbolIndex.Proofs.Naming.Reordering
import SymbolIndex.Proofs.Naming.LongChains
import SymbolIndex.Proofs.Snapshot.Arranging
import SymbolIndex.Proofs.Package.Blocks
import SymbolIndex.Proofs.Package.Listed
import SymbolIndex.Proofs.Machine.Calls
import SymbolIndex.Proofs.Package.Batches
import SymbolIndex.Proofs.Naming.Records
import SymbolIndex.Proofs.FilePath.Below
import SymbolIndex.Proofs.Machine.Walks
import SymbolIndex.Proofs.Analysis.Completeness
import SymbolIndex.Proofs.Analysis.Answers
import SymbolIndex.Proofs.CommandLine.Preparing
import SymbolIndex.Proofs.CommandLine.Publishing
import SymbolIndex.Proofs.CommandLine.Indexing
import SymbolIndex.Proofs.Machine.Refusals
import SymbolIndex.Proofs.Settings.Overriding
import SymbolIndex.Proofs.Analysis.Presentations
