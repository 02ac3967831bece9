import PayFi.Library.Machine
import PayFi.Library.Noninterference
import PayFi.Library.Programs
import PayFi.Library.Results
import PayFi.Library.Clock
import PayFi.Library.Window
import PayFi.Library.ExpiringSet
import PayFi.Library.Maps
import PayFi.Library.Graphs
import PayFi.Library.Numbers
import PayFi.Library.Doubles
import PayFi.Library.FixedPoint
import PayFi.Library.Decimals
import PayFi.Library.Regex
import PayFi.Library.Words
import PayFi.Library.Parties
import PayFi.Library.Signatures
import PayFi.Library.Retry
import PayFi.Library.Jitter
import PayFi.Library.Extrema
import PayFi.Library.Rounding
import PayFi.Library.Pages
import PayFi.Library.JsonText
import PayFi.Library.JsonWords
import PayFi.Library.Objects
import PayFi.Library.Offsets
import PayFi.Library.Validation
import PayFi.Escrow.Contract
import PayFi.Escrow.Specs
import PayFi.Escrow.Effects
import PayFi.Escrow.Runs
import PayFi.Escrow.Completeness
import PayFi.Escrow.Lifecycle
import PayFi.Escrow.Solvency
import PayFi.Escrow.Conservation
import PayFi.Escrow.Invariants
import PayFi.Escrow.Parties
import PayFi.Escrow.Rotation
import PayFi.Escrow.Authority
import PayFi.Escrow.Conditions
import PayFi.Escrow.Journal
import PayFi.Escrow.Composition
import PayFi.Network.AccountCache
import PayFi.Network.Submission
import PayFi.Network.Landing
import PayFi.Network.Sequence
import PayFi.Network.Backoff
import PayFi.Network.Draining
import PayFi.Network.Deadlines
import PayFi.Network.Retries
import PayFi.Network.Timeouts
import PayFi.Network.Agreement
import PayFi.Network.Exhaustion
import PayFi.Spending.Tracker
import PayFi.Spending.Limit
import PayFi.Spending.Accounting
import PayFi.Spending.Guard
import PayFi.Spending.Rejection
import PayFi.Spending.Batch
import PayFi.Tools.Payment
import PayFi.Tools.PaymentSchema
import PayFi.Tools.Rebuilding
import PayFi.Tools.DoublePayment
import PayFi.Tools.MultiSig
import PayFi.Tools.Threshold
import PayFi.Tools.FeeBump
import PayFi.Tools.TransactionBuilder
import PayFi.Tools.EventListener
import PayFi.Tools.SorobanInvoke
import PayFi.Tools.Reconnects
import PayFi.Tools.StorageWatcher
import PayFi.Tools.StorageChanges
import PayFi.Tools.Confirmation
import PayFi.Tools.NamedAssets
import PayFi.Tools.LiquidityPool
import PayFi.Tools.Composed
import PayFi.Tools.Swap
import PayFi.Tools.BatchPayment
import PayFi.Tools.Invocation
import PayFi.Tools.AccountHistory
import PayFi.Agent.Execution
import PayFi.Agent.Queue
import PayFi.Agent.Middlewares
import PayFi.Agent.Reporting
import PayFi.Agent.Audit
import PayFi.Agent.Queueing
import PayFi.Agent.Server
import PayFi.Agent.Shutdown
import PayFi.Agent.Sequence
import PayFi.Agent.Calls
import PayFi.Agent.Streams
import PayFi.Agent.Webhook
import PayFi.Agent.Interference
import PayFi.Agent.Errors
import PayFi.Agent.Causes
import PayFi.Agent.Redaction
import PayFi.Agent.Secrets
import PayFi.Agent.Logger
import PayFi.Agent.Configuration
import PayFi.Agent.Loader
import PayFi.Agent.Delivery
import PayFi.Agent.Paging
import PayFi.Agent.Payload
import PayFi.Agent.Persistence
import PayFi.X402.Challenge
import PayFi.X402.Interleaving
import PayFi.X402.NonceStore
import PayFi.X402.Retention
import PayFi.X402.RateLimit
import PayFi.X402.Respond
import PayFi.X402.Validation
import PayFi.X402.Verify
import PayFi.Tools.Snapshots
import PayFi.Tools.XdrPayload
import PayFi.Tools.EntryReads
import PayFi.Library.Bytes
import PayFi.Tools.SorobanDeploy
import PayFi.Tools.SorobanStorage
