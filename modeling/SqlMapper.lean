import SqlMapper.Binary64.Basic
import SqlMapper.Binary64.Shortest
import SqlMapper.Cache.Faulty
import SqlMapper.Cache.Key
import SqlMapper.Cache.Layers
import SqlMapper.Cache.Locks
import SqlMapper.Cache.Plan
import SqlMapper.Cache.Recency
import SqlMapper.Cache.Store
import SqlMapper.Connection.Call
import SqlMapper.Connection.Isolation
import SqlMapper.Connection.Memory
import SqlMapper.Connection.Property
import SqlMapper.Connection.Recorder
import SqlMapper.Connection.Settings
import SqlMapper.Entries
import SqlMapper.Error
import SqlMapper.Execution.Cached
import SqlMapper.Execution.Executor
import SqlMapper.Execution.Handler
import SqlMapper.Expr.Basic
import SqlMapper.Expr.Eval
import SqlMapper.Expr.Parser
import SqlMapper.Expr.Token
import SqlMapper.Interceptors
import SqlMapper.Json.Basic
import SqlMapper.Json.Reader
import SqlMapper.LogTargets
import SqlMapper.Pool.Acquisition
import SqlMapper.Pool.Basic
import SqlMapper.Pool.Change
import SqlMapper.Pool.Check
import SqlMapper.Pool.Config
import SqlMapper.Pool.ConfigDocument
import SqlMapper.Pool.Return
import SqlMapper.Pool.Run
import SqlMapper.Pool.Status
import SqlMapper.Proofs.Binary64.Rounding
import SqlMapper.Proofs.Cache.Contents
import SqlMapper.Proofs.Cache.Eviction
import SqlMapper.Proofs.Cache.Failures
import SqlMapper.Proofs.Cache.Layering
import SqlMapper.Proofs.Cache.Locked
import SqlMapper.Proofs.Cache.SingleFlight
import SqlMapper.Proofs.Cache.Tracking
import SqlMapper.Proofs.Execution.GivesBack
import SqlMapper.Proofs.Execution.Keys
import SqlMapper.Proofs.Execution.Staleness
import SqlMapper.Proofs.Execution.Traffic
import SqlMapper.Proofs.Execution.Transparency
import SqlMapper.Proofs.Expr.Decimals
import SqlMapper.Proofs.Expr.Grammar
import SqlMapper.Proofs.Expr.Integers
import SqlMapper.Proofs.Expr.Joining
import SqlMapper.Proofs.Expr.Scanning
import SqlMapper.Proofs.Expr.Writing
import SqlMapper.Proofs.Json.Documents
import SqlMapper.Proofs.Json.Reading
import SqlMapper.Proofs.Ledger
import SqlMapper.Proofs.Pool.Alone
import SqlMapper.Proofs.Pool.Attempt
import SqlMapper.Proofs.Pool.Borrowing
import SqlMapper.Proofs.Pool.Calls
import SqlMapper.Proofs.Pool.Capacity
import SqlMapper.Proofs.Pool.Chronicle
import SqlMapper.Proofs.Pool.Conservation
import SqlMapper.Proofs.Pool.Credentials
import SqlMapper.Proofs.Pool.Documents
import SqlMapper.Proofs.Pool.Failing
import SqlMapper.Proofs.Pool.Fairness
import SqlMapper.Proofs.Pool.FirstGood
import SqlMapper.Proofs.Pool.HandOut
import SqlMapper.Proofs.Pool.Holders
import SqlMapper.Proofs.Pool.Identity
import SqlMapper.Proofs.Pool.Inventory
import SqlMapper.Proofs.Pool.Lookalikes
import SqlMapper.Proofs.Pool.Modes
import SqlMapper.Proofs.Pool.Moves
import SqlMapper.Proofs.Pool.Overdue
import SqlMapper.Proofs.Pool.Reconfiguration
import SqlMapper.Proofs.Pool.Relayed
import SqlMapper.Proofs.Pool.Scene
import SqlMapper.Proofs.Pool.Sections
import SqlMapper.Proofs.Pool.Steps
import SqlMapper.Proofs.Pool.Teardown
import SqlMapper.Proofs.Pool.Titles
import SqlMapper.Proofs.Pool.Transfers
import SqlMapper.Proofs.Pool.WakeTimes
import SqlMapper.Proofs.Pool.WakeUps
import SqlMapper.Proofs.Pool.Writes
import SqlMapper.Proofs.Sql.Additional
import SqlMapper.Proofs.Sql.BoundNames
import SqlMapper.Proofs.Sql.Buffers
import SqlMapper.Proofs.Sql.Clauses
import SqlMapper.Proofs.Sql.Decisions
import SqlMapper.Proofs.Sql.Escaping
import SqlMapper.Proofs.Sql.Keywords
import SqlMapper.Proofs.Sql.Literals
import SqlMapper.Proofs.Sql.Noninterference
import SqlMapper.Proofs.Sql.Occurrences
import SqlMapper.Proofs.Sql.Overrides
import SqlMapper.Proofs.Sql.PlainText
import SqlMapper.Proofs.Sql.Readings
import SqlMapper.Proofs.Sql.Renaming
import SqlMapper.Proofs.Sql.Rendering
import SqlMapper.Proofs.Sql.Scope
import SqlMapper.Proofs.Sql.Seams
import SqlMapper.Proofs.Sql.Slots
import SqlMapper.Proofs.Sql.Tokens
import SqlMapper.Proofs.Sql.Trace
import SqlMapper.Proofs.Sql.Trimming
import SqlMapper.Proofs.Sql.Unbinding
import SqlMapper.Proofs.Text.Numerals
import SqlMapper.Sql.Bound
import SqlMapper.Sql.Context
import SqlMapper.Sql.Fragment
import SqlMapper.Sql.Loop
import SqlMapper.Sql.Placeholder
import SqlMapper.Sql.Trim
import SqlMapper.Statement.Basic
import SqlMapper.Statement.RowBounds
import SqlMapper.Text.Blank
import SqlMapper.Text.Case
import SqlMapper.Text.Letter
import SqlMapper.Text.Numeral
import SqlMapper.Text.Quoted
import SqlMapper.Text.Split
import SqlMapper.Time
import SqlMapper.Value.Basic
import SqlMapper.Value.Path
