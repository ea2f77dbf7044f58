import TaintFlow.Bits
import TaintFlow.Budget
import TaintFlow.Command.Analyze
import TaintFlow.Command.Configure
import TaintFlow.Command.Flag
import TaintFlow.Command.Help
import TaintFlow.Command.Host
import TaintFlow.Command.Program
import TaintFlow.Command.Tree
import TaintFlow.Digest.Sha1
import TaintFlow.Discovery.Builtin
import TaintFlow.Discovery.Compiled
import TaintFlow.Discovery.Engine
import TaintFlow.Discovery.Listing
import TaintFlow.Discovery.Literal
import TaintFlow.Discovery.Overlay
import TaintFlow.Discovery.Risk
import TaintFlow.Discovery.Rule
import TaintFlow.Discovery.RuleFile
import TaintFlow.Disk
import TaintFlow.Expr.Calls
import TaintFlow.Expr.Lexeme
import TaintFlow.Expr.Sanitizers
import TaintFlow.Facts.Cache
import TaintFlow.Facts.Records
import TaintFlow.Facts.Row
import TaintFlow.Failure
import TaintFlow.Finding
import TaintFlow.Flow.Analysis
import TaintFlow.Flow.Chain
import TaintFlow.Flow.Feasible
import TaintFlow.Flow.Findings
import TaintFlow.Flow.Graph
import TaintFlow.Flow.Program
import TaintFlow.Flow.Rounds
import TaintFlow.Flow.State
import TaintFlow.Flow.Transfer
import TaintFlow.Flow.Worklist
import TaintFlow.Json.Basic
import TaintFlow.Json.Reader
import TaintFlow.Json.Writer
import TaintFlow.Log.Entry
import TaintFlow.Log.Level
import TaintFlow.Log.Logger
import TaintFlow.Main
import TaintFlow.Number.Binary
import TaintFlow.Number.Duration
import TaintFlow.Number.Numeral
import TaintFlow.Number.Shortest
import TaintFlow.Pattern.Basic
import TaintFlow.Pattern.Parser
import TaintFlow.Proofs.Flow.Best
import TaintFlow.Proofs.Flow.Rules
import TaintFlow.Report.Decode
import TaintFlow.Report.Encode
import TaintFlow.Report.Format
import TaintFlow.Report.Identity
import TaintFlow.Report.Order
import TaintFlow.Report.Plain
import TaintFlow.Report.Sarif
import TaintFlow.Run
import TaintFlow.Run.Prepare
import TaintFlow.Schema.Basic
import TaintFlow.Schema.Code.Basic
import TaintFlow.Schema.Code.Column
import TaintFlow.Schema.Code.Generate
import TaintFlow.Schema.Definition
import TaintFlow.Schema.Naming
import TaintFlow.Schema.Tables
import TaintFlow.Schema.Validate
import TaintFlow.Settings.Basic
import TaintFlow.Settings.Document
import TaintFlow.Settings.Layers
import TaintFlow.Settings.Weak
import TaintFlow.Severity
import TaintFlow.Store.Backend
import TaintFlow.Store.Fixture
import TaintFlow.Store.Memory
import TaintFlow.Store.Open
import TaintFlow.Store.Postgres.Address
import TaintFlow.Store.Postgres.Pool
import TaintFlow.Store.Postgres.Results
import TaintFlow.Store.Postgres.Source
import TaintFlow.Store.Select
import TaintFlow.Store.Sketch
import TaintFlow.Store.Source
import TaintFlow.Store.Sqlite.Database
import TaintFlow.Store.Sqlite.Value
import TaintFlow.Store.Value
import TaintFlow.Text.Blank
import TaintFlow.Text.Bytes
import TaintFlow.Text.Case
import TaintFlow.Text.Category
import TaintFlow.Text.Name
import TaintFlow.Text.Order
import TaintFlow.Text.Printable
import TaintFlow.Text.Quoted
import TaintFlow.Text.Script
import TaintFlow.Text.Search
import TaintFlow.Text.TabStops
import TaintFlow.Words
import TaintFlow.Yaml.Basic
import TaintFlow.Yaml.Scalar
import TaintFlow.Proofs.Flow.Statements
import TaintFlow.Proofs.Flow.Runs
import TaintFlow.Proofs.Flow.Schedules
import TaintFlow.Proofs.Flow.Interruption
import TaintFlow.Proofs.Flow.MoreEdges
import TaintFlow.Proofs.Flow.Monotone
import TaintFlow.Proofs.Flow.Soundness
import TaintFlow.Proofs.Flow.Paths
import TaintFlow.Proofs.Flow.WellFormed
import TaintFlow.Proofs.Flow.Fixpoint
import TaintFlow.Proofs.Flow.Worklist
import TaintFlow.Proofs.Flow.Completeness
import TaintFlow.Proofs.Flow.LeastSolution
import TaintFlow.Proofs.Flow.Chains
import TaintFlow.Proofs.Flow.Executable
import TaintFlow.Proofs.Flow.Brackets
import TaintFlow.Proofs.Flow.OwnLine
import TaintFlow.Proofs.Flow.ChainOrder
import TaintFlow.Proofs.Flow.HopLimit
import TaintFlow.Proofs.Flow.Cancellation
import TaintFlow.Proofs.Flow.Descent
import TaintFlow.Proofs.Flow.WorklistEnds
import TaintFlow.Proofs.Flow.Termination
import TaintFlow.Proofs.Flow.MergeOrder
import TaintFlow.Proofs.Flow.EntryOrder
import TaintFlow.Proofs.Flow.Effects
import TaintFlow.Proofs.Flow.Collections
import TaintFlow.Proofs.Flow.VisitingOrder
import TaintFlow.Proofs.Flow.Truncation
import TaintFlow.Proofs.Flow.Demand
import TaintFlow.Proofs.Expr.Lexing
import TaintFlow.Proofs.Expr.Calls
import TaintFlow.Proofs.Expr.Removal
import TaintFlow.Proofs.Discovery.Exact
import TaintFlow.Proofs.Expr.Words
import TaintFlow.Proofs.Number.Spelling
import TaintFlow.Proofs.Discovery.Literals
import TaintFlow.Proofs.Flow.OverPaths
import TaintFlow.Proofs.Flow.LeastChains
import TaintFlow.Proofs.Schema.DeclaredNames
import TaintFlow.Proofs.Schema.Catalog
import TaintFlow.Proofs.Discovery.Layers
import TaintFlow.Proofs.Report.Canonical
import TaintFlow.Proofs.Flow.SharedCells
import TaintFlow.Proofs.Report.Identity
import TaintFlow.Proofs.Flow.GraphCheck
import TaintFlow.Proofs.Flow.Picks
import TaintFlow.Proofs.Flow.Inventory
import TaintFlow.Proofs.Flow.InRange
import TaintFlow.Proofs.Store.Records
import TaintFlow.Proofs.Facts.Load
import TaintFlow.Proofs.Expr.Overwriting
import TaintFlow.Proofs.Expr.ScanSafety
import TaintFlow.Proofs.Flow.SummaryJoin
import TaintFlow.Proofs.Flow.Innermost
import TaintFlow.Proofs.Discovery.Concatenation
import TaintFlow.Proofs.Discovery.NestedCalls
