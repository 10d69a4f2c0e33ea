import Kraal.CarbonRegistry.Registration
import Kraal.CarbonMarketplace.ListingIds
import Kraal.CarbonCredit.Batch
import Kraal.CarbonCredit.Retirement
import Kraal.CarbonSystem.Issuance
import Kraal.CarbonSystem.Settlement
import Kraal.CarbonSystem.Retirement
import Kraal.CarbonSystem.Authority
import Kraal.StellarKraal.Collateral
import Kraal.StellarKraal.Closing
import Kraal.StellarKraal.Prices
import Kraal.CarbonOracle.CircuitBreaker
import Kraal.CarbonOracle.Deviation
import Kraal.CarbonOracle.Freshness
import Kraal.CarbonOracle.Provenance
import Kraal.CarbonOracle.Arithmetic
import Kraal.CarbonOracle.Availability
import Kraal.Arithmetic.FixedPoint
import Kraal.CarbonTimelock.Contract
import Kraal.CarbonTimelock.Lifecycle
import Kraal.CarbonTimelock.Delay
import Kraal.Backend.Json
import Kraal.Backend.Store
import Kraal.Backend.Services
import Kraal.Backend.Idempotency
import Kraal.Backend.Outcome
import Kraal.Backend.Submission
import Kraal.Backend.Inventory
import Kraal.Backend.KeyOwnership
import Kraal.Backend.Listings
import Kraal.Backend.Agreement
import Kraal.Backend.CrashConsistency
import Kraal.Backend.CanonicalText
import Kraal.EventIndexer.Cursor
import Kraal.Backend.Effects
import Kraal.RateLimit.Redis
import Kraal.RateLimit.Enforcement
import Kraal.RateLimit.StoreAgreement
import Kraal.RateLimit.Budget
import Kraal.RateLimit.RetryAfter
import Kraal.EventIndexer.FanOut
import Kraal.EventIndexer.Contents
import Kraal.EventIndexer.Dedup
import Kraal.EventIndexer.Independence
import Kraal.EventIndexer.Completion
import Kraal.Foundation.Selection
import Kraal.Foundation.OrderStatistics
import Kraal.EventIndexer.Statements
import Kraal.WebhookDelivery.Service
import Kraal.WebhookDelivery.Attempts
import Kraal.WebhookDelivery.Starvation
import Kraal.WebhookDelivery.Indexing
import Kraal.OracleBridge.Aggregation
import Kraal.OracleBridge.Votes
import Kraal.OracleBridge.Resilience
import Kraal.OracleBridge.FeedAdapter
import Kraal.OracleBridge.ReplayDlq
import Kraal.OracleBridge.Attestation
import Kraal.OracleBridge.Bridge
import Kraal.OracleBridge.AttestationCodec
import Kraal.OracleBridge.Pipeline
import Kraal.OracleBridge.AggregateSubmission
import Kraal.OracleBridge.VerifyHashes
import Kraal.OracleBridge.Outliers
import Kraal.PricedSystem.Trades
import Kraal.CarbonSystem.Verification
import Kraal.StellarKraal.LoanHistory
import Kraal.StellarKraal.Feeds
import Kraal.OracleBridge.ChainAudit
import Kraal.OracleBridge.RecordCodec
import Kraal.Foundation.TwoRuns
import Kraal.RateLimit.Isolation
import Kraal.CarbonOracle.Protocol
import Kraal.CarbonTimelock.Protocol
import Kraal.CarbonSystem.Accounts
import Kraal.WebhookDelivery.Routes
import Kraal.WebhookDelivery.Authenticity
import Kraal.App.Server
import Kraal.PricedSystem.Network
import Kraal.Foundation.Double
import Kraal.Backend.Commit
import Kraal.RateLimit.HonouredBudget
import Kraal.OracleBridge.LoneDeviant
