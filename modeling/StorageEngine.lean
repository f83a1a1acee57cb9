import StorageEngine.Identifier
import StorageEngine.Fault
import StorageEngine.Bytes
import StorageEngine.SlottedPage.Header
import StorageEngine.SlottedPage.Layout
import StorageEngine.PageFile
import StorageEngine.Json.Value
import StorageEngine.Json.Record
import StorageEngine.Config
import StorageEngine.Registry
import StorageEngine.Lock.Mode
import StorageEngine.Lock.PageLocks
import StorageEngine.Lock.WaitGraph
import StorageEngine.Lock.Table
import StorageEngine.Page
import StorageEngine.Pool.Error
import StorageEngine.Store
import StorageEngine.Cache
import StorageEngine.Pool.Basic
import StorageEngine.Pool.Fetch
import StorageEngine.Pool.Completion
import StorageEngine.Call.Basic
import StorageEngine.Call.Insert
import StorageEngine.Call.Delete
import StorageEngine.Call.Scan
import StorageEngine.Call.Run
import StorageEngine.Transaction
import StorageEngine.Session.Basic
import StorageEngine.Session.Schedule
import StorageEngine.Session.Step
import StorageEngine.Session.Report
import StorageEngine.Workload
import StorageEngine.CommandLine.Arguments
import StorageEngine.CommandLine.Help
import StorageEngine.CommandLine.Execution
import StorageEngine.CommandLine.Elapsed
import StorageEngine.Main
import StorageEngine.Proofs.Lock.Search
import StorageEngine.Proofs.Lock.Records
import StorageEngine.Proofs.Lock.Expansion
import StorageEngine.Proofs.Lock.Service
import StorageEngine.Proofs.Lock.Deadlock
import StorageEngine.Proofs.Call.Rounds
import StorageEngine.Proofs.Pool.Images
import StorageEngine.Proofs.Pool.Frames
import StorageEngine.Proofs.Pool.Growth
import StorageEngine.Proofs.Pool.Cases
import StorageEngine.Proofs.Pool.Moves
import StorageEngine.Proofs.Pool.Operations
import StorageEngine.Proofs.Pool.Current
import StorageEngine.Proofs.PageFile.PageArray
import StorageEngine.Proofs.SlottedPage.Layout
import StorageEngine.Proofs.Workspace.Basic
import StorageEngine.Proofs.Workspace.Faithful
import StorageEngine.Proofs.Workspace.Operations
import StorageEngine.Proofs.System.Basic
import StorageEngine.Proofs.System.Growth
import StorageEngine.Proofs.System.Moves
import StorageEngine.Proofs.System.NoSteal
import StorageEngine.Proofs.System.Ownership
import StorageEngine.Proofs.System.WholeCalls
import StorageEngine.Proofs.Workspace.Completion
import StorageEngine.Proofs.System.Mirrors
import StorageEngine.Proofs.System.Simulation
import StorageEngine.Proofs.SlottedPage.Records
import StorageEngine.Proofs.SlottedPage.RecordList
import StorageEngine.Proofs.Lock.Tidy
import StorageEngine.Proofs.Workspace.History
import StorageEngine.Proofs.System.Records
import StorageEngine.Proofs.Pool.PageSizes
import StorageEngine.Proofs.Pool.Unaltered
import StorageEngine.Proofs.System.TableChanges
import StorageEngine.Proofs.System.Handles
import StorageEngine.Proofs.System.StepMoves
import StorageEngine.Proofs.Workspace.Rooted
import StorageEngine.Proofs.System.Repeatable
import StorageEngine.Proofs.System.Tally
import StorageEngine.Proofs.System.WholeScans
import StorageEngine.Proofs.Workload.Turns
import StorageEngine.Proofs.Workload.Moves
import StorageEngine.Proofs.Workload.Accounts
import StorageEngine.Proofs.CommandLine.Counting
import StorageEngine.Proofs.CommandLine.Sequences
import StorageEngine.Proofs.System.Unaltered
import StorageEngine.Proofs.System.Turns
import StorageEngine.Proofs.System.Faultless
import StorageEngine.Proofs.System.Following
import StorageEngine.Proofs.System.Abort
import StorageEngine.Proofs.System.Lifecycle
import StorageEngine.Proofs.Pool.Kept
import StorageEngine.Proofs.System.Arranged
import StorageEngine.Proofs.System.Storing
import StorageEngine.Proofs.System.Insertion
import StorageEngine.Proofs.System.Calling
import StorageEngine.Proofs.System.Snapshot
import StorageEngine.Proofs.System.Room
import StorageEngine.Proofs.Lock.Grants
import StorageEngine.Proofs.Lock.Waking
import StorageEngine.Proofs.Pool.Reading
import StorageEngine.Proofs.System.ShortPages
import StorageEngine.Proofs.System.FailedCalls
import StorageEngine.Proofs.System.Views
import StorageEngine.Proofs.System.FirstFit
import StorageEngine.Proofs.SlottedPage.Mutation
import StorageEngine.Proofs.PageFile.Allocation
import StorageEngine.Proofs.Pool.Order
import StorageEngine.Proofs.System.PoolSteps
import StorageEngine.Proofs.System.Recency
