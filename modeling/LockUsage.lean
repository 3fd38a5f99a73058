import LockUsage.Alias.Basic
import LockUsage.Alias.SetText
import LockUsage.Analysis.Basic
import LockUsage.Analysis.CallStack
import LockUsage.Analysis.Config
import LockUsage.Analysis.ConfigReader
import LockUsage.Analysis.Summary
import LockUsage.CommandLine.FileTree
import LockUsage.CommandLine.Job
import LockUsage.CommandLine.Options
import LockUsage.CommandLine.Words
import LockUsage.Flow.Body
import LockUsage.Flow.Edge
import LockUsage.Graph.BlockGraph
import LockUsage.Graph.CallGraph
import LockUsage.Graph.Components
import LockUsage.Graph.ControlDependence
import LockUsage.Graph.PostDominance
import LockUsage.Json.Basic
import LockUsage.Json.Numeral
import LockUsage.Json.Printer
import LockUsage.Json.Reader
import LockUsage.Json.Record
import LockUsage.Main
import LockUsage.NamePattern.Anchor
import LockUsage.NamePattern.Basic
import LockUsage.NamePattern.CharClass
import LockUsage.NamePattern.Encoding
import LockUsage.NamePattern.Escape
import LockUsage.NamePattern.Matcher
import LockUsage.NamePattern.Reader
import LockUsage.NamePattern.SetReader
import LockUsage.NamePattern.Size
import LockUsage.Program.Basic
import LockUsage.Program.BlockTable
import LockUsage.Program.Builder
import LockUsage.Program.Derivation
import LockUsage.Program.Description
import LockUsage.Program.Reader
import LockUsage.Program.Record
import LockUsage.Program.Validation
import LockUsage.Proofs.AliasSetTexts
import LockUsage.Proofs.Balance
import LockUsage.Proofs.BottomUp
import LockUsage.Proofs.BranchDecisions
import LockUsage.Proofs.CallDepths
import LockUsage.Proofs.CallGraphs
import LockUsage.Proofs.ChangeDetection
import LockUsage.Proofs.CleanFunctions
import LockUsage.Proofs.ClearedOutcomes
import LockUsage.Proofs.Climbing
import LockUsage.Proofs.ComponentSearches
import LockUsage.Proofs.ConsistentWalks
import LockUsage.Proofs.ControlDependence
import LockUsage.Proofs.Convergence
import LockUsage.Proofs.DependenceChains
import LockUsage.Proofs.DerivationRoots
import LockUsage.Proofs.Diagnostics
import LockUsage.Proofs.DirectCalls
import LockUsage.Proofs.EnteringEdges
import LockUsage.Proofs.FactSets
import LockUsage.Proofs.FirstAnomaly
import LockUsage.Proofs.Fixpoints
import LockUsage.Proofs.FlowFunctions
import LockUsage.Proofs.Grouping
import LockUsage.Proofs.ImmediateBlocks
import LockUsage.Proofs.KeptSites
import LockUsage.Proofs.Layout
import LockUsage.Proofs.LeavingOrder
import LockUsage.Proofs.Lists
import LockUsage.Proofs.Loading
import LockUsage.Proofs.LockClasses
import LockUsage.Proofs.LockCounters
import LockUsage.Proofs.LockLevels
import LockUsage.Proofs.Lookups
import LockUsage.Proofs.LoopFree
import LockUsage.Proofs.OrderlyFacts
import LockUsage.Proofs.PairSearch
import LockUsage.Proofs.PairWalks
import LockUsage.Proofs.PathAbsorption
import LockUsage.Proofs.PathAssumptions
import LockUsage.Proofs.PathConditions
import LockUsage.Proofs.PathMerging
import LockUsage.Proofs.PendingWork
import LockUsage.Proofs.PostDominators
import LockUsage.Proofs.Postorder
import LockUsage.Proofs.Problems
import LockUsage.Proofs.Provenance
import LockUsage.Proofs.RedirectedRuns
import LockUsage.Proofs.RedirectedSummaries
import LockUsage.Proofs.Redirection
import LockUsage.Proofs.ReportedSites
import LockUsage.Proofs.Saturation
import LockUsage.Proofs.SearchSteps
import LockUsage.Proofs.SiteCounts
import LockUsage.Proofs.SolverSteps
import LockUsage.Proofs.Stability
import LockUsage.Proofs.Summaries
import LockUsage.Proofs.Sweeps
import LockUsage.Proofs.Termination
import LockUsage.Proofs.Totals
import LockUsage.Proofs.ValueNames
import LockUsage.Proofs.Walks
import LockUsage.Proofs.WorkOrder
import LockUsage.Proofs.Wrappers
import LockUsage.Report.Diagnostic
import LockUsage.Report.Duration
import LockUsage.Report.Files
import LockUsage.Report.Record
import LockUsage.Report.Statistic
import LockUsage.Solver.Guard
import LockUsage.Solver.Problem
import LockUsage.Solver.Run
import LockUsage.Solver.Worklist
import LockUsage.State.FactSet
import LockUsage.State.Grouping
import LockUsage.State.Locks
import LockUsage.State.Path
import LockUsage.Text.Age
import LockUsage.Text.Blank
import LockUsage.Text.CaseFolding
import LockUsage.Text.Category
import LockUsage.Text.CodeSet
import LockUsage.Text.Double
import LockUsage.Text.Numeral
import LockUsage.Text.Property
import LockUsage.Text.Quoted
import LockUsage.Text.Script
import LockUsage.Text.Segmentation
import LockUsage.Toml.Reader
import LockUsage.Toml.Scalar
import LockUsage.Toml.Table
import LockUsage.Usage.LockApi
import LockUsage.Usage.LockEvents
import LockUsage.Usage.Pairs
