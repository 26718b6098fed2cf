import FlowGraph.Binary32.Basic
import FlowGraph.Binary32.Decimal
import FlowGraph.Binary32.Layout
import FlowGraph.Binary32.Shortest
import FlowGraph.Catalog.Basic
import FlowGraph.Catalog.Standard
import FlowGraph.Connection.Basic
import FlowGraph.Connection.Id
import FlowGraph.Document.Bare
import FlowGraph.Document.Blank
import FlowGraph.Document.Decode
import FlowGraph.Document.Encode
import FlowGraph.Document.Form
import FlowGraph.Document.Literal
import FlowGraph.Document.Name
import FlowGraph.Document.Number
import FlowGraph.Document.Place
import FlowGraph.Document.Read
import FlowGraph.Document.Reader
import FlowGraph.Document.Schema
import FlowGraph.Document.SettingsFile
import FlowGraph.Document.Skip
import FlowGraph.Document.Tree
import FlowGraph.Document.Write
import FlowGraph.Graph.Admission
import FlowGraph.Graph.Basic
import FlowGraph.Graph.Building
import FlowGraph.Graph.Command
import FlowGraph.Graph.DataOrder
import FlowGraph.Graph.Error
import FlowGraph.Graph.Execution
import FlowGraph.Graph.Integrity
import FlowGraph.Graph.Reach
import FlowGraph.Graph.Refresh
import FlowGraph.Graph.Removal
import FlowGraph.Graph.Run
import FlowGraph.Inspect
import FlowGraph.Journal
import FlowGraph.Node.Basic
import FlowGraph.Node.Behavior
import FlowGraph.Node.Flow
import FlowGraph.Node.Lemmas
import FlowGraph.Node.Spec
import FlowGraph.Pin
import FlowGraph.Proofs.Admission
import FlowGraph.Proofs.Afresh
import FlowGraph.Proofs.Audit
import FlowGraph.Proofs.Blocks
import FlowGraph.Proofs.BuildOrder
import FlowGraph.Proofs.Calls
import FlowGraph.Proofs.Changes
import FlowGraph.Proofs.Chronology
import FlowGraph.Proofs.Cleanup
import FlowGraph.Proofs.Confinement
import FlowGraph.Proofs.Connecting
import FlowGraph.Proofs.DataOrder
import FlowGraph.Proofs.Dependencies
import FlowGraph.Proofs.DepthFirst
import FlowGraph.Proofs.Digits
import FlowGraph.Proofs.EarlyRefresh
import FlowGraph.Proofs.ExecInputs
import FlowGraph.Proofs.ExecPaths
import FlowGraph.Proofs.FlowRoles
import FlowGraph.Proofs.Following
import FlowGraph.Proofs.Forms
import FlowGraph.Proofs.Halting
import FlowGraph.Proofs.InsertionOrder
import FlowGraph.Proofs.Integrity
import FlowGraph.Proofs.Invariant
import FlowGraph.Proofs.KnownOrder
import FlowGraph.Proofs.Layout
import FlowGraph.Proofs.LazyPull
import FlowGraph.Proofs.LeftOut
import FlowGraph.Proofs.Lockstep
import FlowGraph.Proofs.Loop
import FlowGraph.Proofs.Marks
import FlowGraph.Proofs.Memory
import FlowGraph.Proofs.Nesting
import FlowGraph.Proofs.Operation
import FlowGraph.Proofs.Pass
import FlowGraph.Proofs.PathSearch
import FlowGraph.Proofs.PostOrder
import FlowGraph.Proofs.PullOrder
import FlowGraph.Proofs.PullScope
import FlowGraph.Proofs.Quoted
import FlowGraph.Proofs.Reachability
import FlowGraph.Proofs.Recast
import FlowGraph.Proofs.Records
import FlowGraph.Proofs.Recursion
import FlowGraph.Proofs.Refusal
import FlowGraph.Proofs.Registration
import FlowGraph.Proofs.RejectedCreation
import FlowGraph.Proofs.Removal
import FlowGraph.Proofs.RemovalOrder
import FlowGraph.Proofs.RenumberedCall
import FlowGraph.Proofs.RenumberedExecution
import FlowGraph.Proofs.RenumberedRun
import FlowGraph.Proofs.Renumbering
import FlowGraph.Proofs.Replacement
import FlowGraph.Proofs.Replay
import FlowGraph.Proofs.Resemblance
import FlowGraph.Proofs.Rest
import FlowGraph.Proofs.RoundTrip
import FlowGraph.Proofs.Rules
import FlowGraph.Proofs.SettingsDocument
import FlowGraph.Proofs.Settling
import FlowGraph.Proofs.Shortest
import FlowGraph.Proofs.Skeleton
import FlowGraph.Proofs.Stack
import FlowGraph.Proofs.Survivors
import FlowGraph.Proofs.Tally
import FlowGraph.Proofs.Termination
import FlowGraph.Proofs.Vacancy
import FlowGraph.Proofs.WellFormed
import FlowGraph.Proofs.Wiring
import FlowGraph.Settings
import FlowGraph.Snapshot
import FlowGraph.Store.Basic
import FlowGraph.Store.Lemmas
import FlowGraph.Table.Basic
import FlowGraph.Table.Lemmas
import FlowGraph.Text.CodeSet
import FlowGraph.Text.Combining
import FlowGraph.Text.Identifier
import FlowGraph.Text.Quoted
import FlowGraph.Text.Visible
import FlowGraph.Value
