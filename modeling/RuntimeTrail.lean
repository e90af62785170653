import RuntimeTrail.Correlation.Accounting
import RuntimeTrail.Correlation.Allowance
import RuntimeTrail.Correlation.Ceiling
import RuntimeTrail.Correlation.CoActivity
import RuntimeTrail.Correlation.Engine
import RuntimeTrail.Correlation.Exact
import RuntimeTrail.Correlation.Formed
import RuntimeTrail.Correlation.Guards
import RuntimeTrail.Correlation.Scans
import RuntimeTrail.Correlation.Vocabulary
import RuntimeTrail.Http.Envelope
import RuntimeTrail.Http.Investigations
import RuntimeTrail.Http.Render
import RuntimeTrail.Ingestion.Anomalies
import RuntimeTrail.Ingestion.Bound
import RuntimeTrail.Ingestion.Carried
import RuntimeTrail.Ingestion.Decode
import RuntimeTrail.Ingestion.Deliveries
import RuntimeTrail.Ingestion.Document
import RuntimeTrail.Ingestion.Evidence
import RuntimeTrail.Ingestion.Handoff
import RuntimeTrail.Ingestion.Interns
import RuntimeTrail.Ingestion.Largest
import RuntimeTrail.Ingestion.Otlp
import RuntimeTrail.Ingestion.Pipeline
import RuntimeTrail.Ingestion.Queue
import RuntimeTrail.Ingestion.Recover
import RuntimeTrail.Ingestion.Refusals
import RuntimeTrail.Ingestion.Retries
import RuntimeTrail.Ingestion.Retryable
import RuntimeTrail.Ingestion.Saturation
import RuntimeTrail.Ingestion.Wire
import RuntimeTrail.Investigation.Breadth
import RuntimeTrail.Investigation.Ceilings
import RuntimeTrail.Investigation.Completeness
import RuntimeTrail.Investigation.Descriptors
import RuntimeTrail.Investigation.Envelope
import RuntimeTrail.Investigation.Flow
import RuntimeTrail.Investigation.Gathered
import RuntimeTrail.Investigation.Honesty
import RuntimeTrail.Investigation.Pages
import RuntimeTrail.Investigation.Reach
import RuntimeTrail.Investigation.Recovery
import RuntimeTrail.Investigation.Shrinkage
import RuntimeTrail.Investigation.Stood
import RuntimeTrail.Investigation.Truncations
import RuntimeTrail.Investigation.Waterfall
import RuntimeTrail.Library.Binary64
import RuntimeTrail.Library.Bytes
import RuntimeTrail.Library.Comparison
import RuntimeTrail.Library.ContentMap
import RuntimeTrail.Library.Delimited
import RuntimeTrail.Library.Digest
import RuntimeTrail.Library.Failing
import RuntimeTrail.Library.Faults
import RuntimeTrail.Library.Hex
import RuntimeTrail.Library.Journal
import RuntimeTrail.Library.Json
import RuntimeTrail.Library.JsonTree
import RuntimeTrail.Library.Keyed
import RuntimeTrail.Library.Levels
import RuntimeTrail.Library.Loop
import RuntimeTrail.Library.Matching
import RuntimeTrail.Library.Pairs
import RuntimeTrail.Library.ParentLinks
import RuntimeTrail.Library.PrefixFree
import RuntimeTrail.Library.Print
import RuntimeTrail.Library.Recovery
import RuntimeTrail.Library.SortedMap
import RuntimeTrail.Library.StackWalk
import RuntimeTrail.Library.Suffix
import RuntimeTrail.Library.Tells
import RuntimeTrail.Library.Texts
import RuntimeTrail.Library.Threads
import RuntimeTrail.Library.Utf8
import RuntimeTrail.Mcp.Ending
import RuntimeTrail.Mcp.Framing
import RuntimeTrail.Mcp.Protocol
import RuntimeTrail.Mcp.Render
import RuntimeTrail.Mcp.Session
import RuntimeTrail.Mcp.Surfaces
import RuntimeTrail.Mcp.Tools
import RuntimeTrail.Memory.Audit
import RuntimeTrail.Memory.Charges
import RuntimeTrail.Memory.Coherence
import RuntimeTrail.Memory.Horizon
import RuntimeTrail.Memory.Reports
import RuntimeTrail.Memory.Residency
import RuntimeTrail.Memory.Retention
import RuntimeTrail.Memory.Store
import RuntimeTrail.Model.Budgets
import RuntimeTrail.Model.Context
import RuntimeTrail.Model.FirstStands
import RuntimeTrail.Model.Ledger
import RuntimeTrail.Model.LedgerRuns
import RuntimeTrail.Model.Metrics
import RuntimeTrail.Model.Orders
import RuntimeTrail.Model.Records
import RuntimeTrail.Model.Size
import RuntimeTrail.Model.Values
import RuntimeTrail.Model.Walks
import RuntimeTrail.Query.Advance
import RuntimeTrail.Query.Budget
import RuntimeTrail.Query.Canonical
import RuntimeTrail.Query.Chain
import RuntimeTrail.Query.Cursor
import RuntimeTrail.Query.Engine
import RuntimeTrail.Query.Filters
import RuntimeTrail.Query.Frontier
import RuntimeTrail.Query.Lease
import RuntimeTrail.Query.Page
import RuntimeTrail.Query.Paged
import RuntimeTrail.Query.Paging
import RuntimeTrail.Query.Reference
import RuntimeTrail.Query.Sources
import RuntimeTrail.Query.Spending
import RuntimeTrail.Query.Turns
import RuntimeTrail.Query.Uncounted
import RuntimeTrail.Query.Walk
import RuntimeTrail.Runtime.Bounded
import RuntimeTrail.Runtime.Clock
import RuntimeTrail.Runtime.Drain
import RuntimeTrail.Runtime.Handover
import RuntimeTrail.Runtime.Identities
import RuntimeTrail.Runtime.Invariant
import RuntimeTrail.Runtime.Investigated
import RuntimeTrail.Runtime.Journal
import RuntimeTrail.Runtime.PartialSuccess
import RuntimeTrail.Runtime.Provenance
import RuntimeTrail.Runtime.Restart
import RuntimeTrail.Runtime.Session
import RuntimeTrail.Runtime.Shutdown
import RuntimeTrail.Runtime.Standing
import RuntimeTrail.Runtime.Streams
import RuntimeTrail.Sqlite.Crash
import RuntimeTrail.Sqlite.Degraded
import RuntimeTrail.Sqlite.Mirror
import RuntimeTrail.Sqlite.Opened
import RuntimeTrail.Sqlite.Rebuild
import RuntimeTrail.Sqlite.Refinement
import RuntimeTrail.Sqlite.Reopen
import RuntimeTrail.Sqlite.Resume
import RuntimeTrail.Sqlite.Store
import RuntimeTrail.Storage.Contract
import RuntimeTrail.Storage.Driver
import RuntimeTrail.Storage.Order
import RuntimeTrail.Storage.Paging
import RuntimeTrail.Storage.Shelf
import RuntimeTrail.Transport.Answers
import RuntimeTrail.Transport.Bounded
import RuntimeTrail.Transport.Edge
import RuntimeTrail.Transport.Guard
import RuntimeTrail.Transport.Headers
import RuntimeTrail.Transport.Listener
import RuntimeTrail.Web.Timestamps
import RuntimeTrail.Web.Waterfall
