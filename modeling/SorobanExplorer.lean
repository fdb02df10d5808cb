import SorobanExplorer.Library.Run
import SorobanExplorer.Library.Transaction
import SorobanExplorer.Library.KeyedStore
import SorobanExplorer.Library.RingLog
import SorobanExplorer.Library.Binary64
import SorobanExplorer.Library.Numeral
import SorobanExplorer.Library.JsNumber
import SorobanExplorer.Library.JsArithmetic
import SorobanExplorer.Library.Utf16
import SorobanExplorer.Library.Json
import SorobanExplorer.Library.Postgres
import SorobanExplorer.Library.Hex
import SorobanExplorer.Library.Parsing
import SorobanExplorer.Library.MountainRange
import SorobanExplorer.Library.JsonWritten
import SorobanExplorer.Library.Table
import SorobanExplorer.Library.OrderedMap
import SorobanExplorer.Library.Validity
import SorobanExplorer.Library.JsonLines
import SorobanExplorer.Library.PathPattern
import SorobanExplorer.Library.Base32
import SorobanExplorer.Library.BinaryPolynomial
import SorobanExplorer.Library.IpAddress
import SorobanExplorer.Contract.Types
import SorobanExplorer.Contract.State
import SorobanExplorer.Contract.Host
import SorobanExplorer.Contract.Admin
import SorobanExplorer.Contract.Strkey
import SorobanExplorer.Contract.Mmr
import SorobanExplorer.Contract.Registry
import SorobanExplorer.Contract.EventLog
import SorobanExplorer.Contract.System
import SorobanExplorer.Contract.Deployment
import SorobanExplorer.Contract.Footprint
import SorobanExplorer.Contract.Pausing
import SorobanExplorer.Contract.Entry
import SorobanExplorer.Contract.History
import SorobanExplorer.Contract.Control
import SorobanExplorer.Contract.Deposits
import SorobanExplorer.Contract.Moderation
import SorobanExplorer.Contract.Submission
import SorobanExplorer.Contract.Window
import SorobanExplorer.Contract.Paging
import SorobanExplorer.Contract.Commitment
import SorobanExplorer.Ticketing.Escrow
import SorobanExplorer.Filters.JsValue
import SorobanExplorer.Filters.Ast
import SorobanExplorer.Filters.Evaluate
import SorobanExplorer.Filters.Sql
import SorobanExplorer.Filters.Reading
import SorobanExplorer.Filters.Comparing
import SorobanExplorer.Filters.Conditions
import SorobanExplorer.Filters.Predicates
import SorobanExplorer.Filters.Agreement
import SorobanExplorer.Filters.Fragment
import SorobanExplorer.Filters.SqlText
import SorobanExplorer.Filters.Meaning
import SorobanExplorer.Filters.Planner
import SorobanExplorer.Filters.Planning
import SorobanExplorer.Filters.Guarding
import SorobanExplorer.Filters.Parser
import SorobanExplorer.Filters.Grammar
import SorobanExplorer.Filters.JsonInput
import SorobanExplorer.Filters.Containment
import SorobanExplorer.SavedFilters.Dsl
import SorobanExplorer.SavedFilters.Denotation
import SorobanExplorer.SavedFilters.Meaning
import SorobanExplorer.SavedFilters.Separation
import SorobanExplorer.RpcFilters.Filters
import SorobanExplorer.RpcFilters.Matching
import SorobanExplorer.RpcFilters.Rule
import SorobanExplorer.RpcFilters.Agreement
import SorobanExplorer.Indexer.EventMmr
import SorobanExplorer.Indexer.Losses
import SorobanExplorer.Indexer.EventIdentity
import SorobanExplorer.Indexer.EventColumns
import SorobanExplorer.Indexer.Processing
import SorobanExplorer.Indexer.Outbox
import SorobanExplorer.Indexer.Rollback
import SorobanExplorer.Indexer.Reorg
import SorobanExplorer.Indexer.Relay
import SorobanExplorer.Indexer.Cursor
import SorobanExplorer.Indexer.EventPages
import SorobanExplorer.Indexer.CursorSoundness
import SorobanExplorer.Indexer.TokenHolders
import SorobanExplorer.Indexer.Roles
import SorobanExplorer.Indexer.DeadLetters
import SorobanExplorer.Indexer.RetryClaims
import SorobanExplorer.Indexer.AbiVersions
import SorobanExplorer.Indexer.UpgradeDetector
import SorobanExplorer.Indexer.CodeVerification
import SorobanExplorer.Indexer.ContractPages
import SorobanExplorer.Indexer.EventFeed
import SorobanExplorer.Indexer.EventStream
import SorobanExplorer.Indexer.EventSocket
import SorobanExplorer.Indexer.StateHistory
import SorobanExplorer.Indexer.StateDiffs
import SorobanExplorer.Indexer.WebhookSubscriptions
import SorobanExplorer.Indexer.WebhookDelivery
import SorobanExplorer.Indexer.ReDecode
import SorobanExplorer.Indexer.LeaderElection
import SorobanExplorer.Indexer.JobScheduler
import SorobanExplorer.Indexer.ContractSpecCache
import SorobanExplorer.Indexer.RpcVerifier
import SorobanExplorer.Indexer.ReplayCanonical
import SorobanExplorer.Indexer.ReplayDiff
import SorobanExplorer.Indexer.RouteScopes
import SorobanExplorer.Indexer.ScopeMiddleware
import SorobanExplorer.Indexer.AuthChains
import SorobanExplorer.Indexer.AccountTakeover
import SorobanExplorer.Indexer.KeyRotation
import SorobanExplorer.Indexer.KeyRevocation
import SorobanExplorer.Indexer.ModerationDecisions
import SorobanExplorer.Indexer.ModerationReports
import SorobanExplorer.Indexer.RequestSigning
import SorobanExplorer.Indexer.ConfigVersions
import SorobanExplorer.Indexer.SecretRotation
import SorobanExplorer.Indexer.CdnPurge
import SorobanExplorer.Indexer.NonceReplay
import SorobanExplorer.Indexer.UsageTracker
import SorobanExplorer.Indexer.ConcurrentLimiter
import SorobanExplorer.Indexer.QueryJobStates
import SorobanExplorer.Indexer.QueryJobQuota
import SorobanExplorer.Indexer.JobExport
import SorobanExplorer.Indexer.SignedResponses
import SorobanExplorer.Indexer.StripeWebhook
import SorobanExplorer.Indexer.IngestWorkers
import SorobanExplorer.Indexer.BackfillRange
import SorobanExplorer.Indexer.SafeHttp
import SorobanExplorer.Indexer.TokenBucket
import SorobanExplorer.Indexer.BucketWindow
import SorobanExplorer.Indexer.AbuseDetector
import SorobanExplorer.Indexer.LoadShedder
import SorobanExplorer.Indexer.RpcFailover
import SorobanExplorer.Indexer.ReadReplicas
import SorobanExplorer.Indexer.CursorErrors
import SorobanExplorer.Indexer.CacheLayer
import SorobanExplorer.Indexer.CacheCoherence
import SorobanExplorer.Indexer.LruCache
import SorobanExplorer.Indexer.PluginSandbox
import SorobanExplorer.Indexer.PluginViolations
import SorobanExplorer.Library.DecimalText
import SorobanExplorer.Library.JsBigInt
import SorobanExplorer.Indexer.EventIds
import SorobanExplorer.Indexer.FormatAmount
import SorobanExplorer.Library.BatchQueue
import SorobanExplorer.Indexer.AuditLogger
import SorobanExplorer.Library.Templates
import SorobanExplorer.Indexer.GraphqlComplexity
import SorobanExplorer.Library.JsInt32
import SorobanExplorer.Indexer.IpUtils
import SorobanExplorer.Library.Leb128
import SorobanExplorer.Indexer.WasmContractSpec
import SorobanExplorer.Indexer.ScValDecoding
import SorobanExplorer.Library.SlidingWindow
import SorobanExplorer.Indexer.AbuseScorer
import SorobanExplorer.Indexer.GeoRates
import SorobanExplorer.Library.Utf8
import SorobanExplorer.Collab.LinkRotation
import SorobanExplorer.Collab.Persistence
