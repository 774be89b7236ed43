import PostStore.Assertion
import PostStore.Bindings
import PostStore.Cache.Absent
import PostStore.Cache.Basic
import PostStore.Cache.Lru
import PostStore.Calendar.Date
import PostStore.Calendar.Duration
import PostStore.Calendar.Instant
import PostStore.Calendar.Rfc3339.Reader
import PostStore.Calendar.Rfc3339.Writer
import PostStore.Conformance
import PostStore.Coordinator
import PostStore.Dialogue
import PostStore.Digest.Sha256
import PostStore.Error
import PostStore.Files.Error
import PostStore.Files.Path
import PostStore.Files.Tree
import PostStore.Fixture
import PostStore.Json.Fault
import PostStore.Json.Lexer
import PostStore.Json.Members
import PostStore.Json.Scalar
import PostStore.Json.Skip
import PostStore.Lmdb.Environment
import PostStore.Lmdb.Store
import PostStore.Post.Basic
import PostStore.Post.Document
import PostStore.Post.Supply
import PostStore.Postgres.Server
import PostStore.Postgres.Statement
import PostStore.Postgres.Store
import PostStore.Proofs.Answers
import PostStore.Proofs.Bindings
import PostStore.Proofs.Calendar
import PostStore.Proofs.Coordinator
import PostStore.Proofs.Document
import PostStore.Proofs.Draining
import PostStore.Proofs.Healthy
import PostStore.Proofs.Identity
import PostStore.Proofs.Interleaving
import PostStore.Proofs.LateFill
import PostStore.Proofs.LostInvalidation
import PostStore.Proofs.LruTransparency
import PostStore.Proofs.Rfc3339
import PostStore.Proofs.Transparency
import PostStore.Proofs.Weather
import PostStore.Redis.Address
import PostStore.Redis.Cache
import PostStore.Redis.Reply
import PostStore.Redis.Server
import PostStore.Redis.Store
import PostStore.Retry
import PostStore.Service.Error
import PostStore.Service.Posts
import PostStore.Service.Response
import PostStore.Settings.Basic
import PostStore.Settings.Environment
import PostStore.Settings.Kind
import PostStore.Settings.Telemetry
import PostStore.Stack.Basic
import PostStore.Stack.Media
import PostStore.Store.Basic
import PostStore.Store.Cursor
import PostStore.Store.Feed
import PostStore.Store.Layer
import PostStore.Store.Memory
import PostStore.Store.Scripted
import PostStore.Text.Blank
import PostStore.Text.Bytes
import PostStore.Text.Host
import PostStore.Text.Lookless
import PostStore.Text.Numeral
import PostStore.Text.Pieces
import PostStore.Text.Quoted
import PostStore.Text.Shortest
import PostStore.Text.Url
import PostStore.Wiring.Connect
import PostStore.Wiring.Site
import PostStore.Proofs.Agreement
import PostStore.Proofs.Lmdb.Entries
import PostStore.Proofs.Lmdb.Holdings
import PostStore.Proofs.Lmdb.Transactions
import PostStore.Proofs.Lmdb.Pages
import PostStore.Proofs.Lmdb.Agreement
import PostStore.Proofs.Redis.Replies
import PostStore.Proofs.Redis.Hashes
import PostStore.Proofs.Redis.Agreement
import PostStore.Proofs.Redis.Server
import PostStore.Proofs.Lmdb.Paging
import PostStore.Proofs.Postgres.Rows
import PostStore.Proofs.Postgres.Paging
import PostStore.Proofs.Postgres.Table
import PostStore.Proofs.PagedListings
import PostStore.Proofs.Asking
import PostStore.Proofs.Iteration
import PostStore.Proofs.Listings
import PostStore.Proofs.CachedFollowing
import PostStore.Proofs.Timestamps
import PostStore.Proofs.ServiceRuns
import PostStore.Proofs.Texts
import PostStore.Proofs.Json.Grammar
import PostStore.Proofs.Json.Strings
import PostStore.Proofs.Json.Scalars
import PostStore.Proofs.Json.Skipping
import PostStore.Proofs.Json.Structures
import PostStore.Proofs.Json.Remainders
import PostStore.Proofs.DocumentGrammar
import PostStore.Proofs.LeastRecentlyUsed
import PostStore.Proofs.LostReplies
import PostStore.Proofs.Redis.SharedDatabase
import PostStore.Proofs.Postgres.Statements
import PostStore.Proofs.Postgres.Agreement
import PostStore.Proofs.Redis.Scanning
import PostStore.Proofs.Redis.Misfiled
import PostStore.Proofs.Lmdb.Atomicity
import PostStore.Proofs.FailedCalls
import PostStore.Proofs.FlatMemory
import PostStore.Proofs.OpaqueFailures
import PostStore.Proofs.Redis.SelfHealing
import PostStore.Proofs.SparedReads
import PostStore.Proofs.Collecting
import PostStore.Proofs.Retry.Words
import PostStore.Proofs.Retry.Pauses
import PostStore.Proofs.Retry.Attempts
import PostStore.Proofs.Settings.Readings
import PostStore.Proofs.Settings.Loading
import PostStore.Proofs.Settings.Connecting
import PostStore.Proofs.Settings.Limits
import PostStore.Proofs.LastInstant
import PostStore.Proofs.Conformance.Users
import PostStore.Proofs.Conformance.Steps
import PostStore.Proofs.Digest
import PostStore.Proofs.Conformance.Checks
import PostStore.Proofs.Conformance.Benches
import PostStore.Proofs.Conformance.Suite
import PostStore.Proofs.Settings.Naming
import PostStore.Proofs.Reliable
import PostStore.Proofs.Turns
import PostStore.Proofs.SeparateKeys
import PostStore.Proofs.CivilTime
import PostStore.Proofs.Revisions
