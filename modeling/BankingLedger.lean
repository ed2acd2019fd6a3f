import BankingLedger.Shared.Runs
import BankingLedger.Shared.Interleaving
import BankingLedger.Shared.CheckThenMark
import BankingLedger.Shared.Tickets
import BankingLedger.Shared.OffsetReader
import BankingLedger.Shared.BoundedQueue
import BankingLedger.Shared.MachineInt
import BankingLedger.Shared.FiniteMap
import BankingLedger.Shared.WriteBehind
import BankingLedger.Shared.SlidingWindow
import BankingLedger.Shared.RowSchema
import BankingLedger.Shared.LockPaths
import BankingLedger.Shared.ByteText
import BankingLedger.Shared.Delimited
import BankingLedger.Shared.LineFile
import BankingLedger.Shared.HexText
import BankingLedger.Shared.JsonText
import BankingLedger.Shared.HashLinked
import BankingLedger.Shared.TextPattern
import BankingLedger.Shared.CivilTime
import BankingLedger.Shared.UtcTime
import BankingLedger.Shared.CycleSearch
import BankingLedger.Shared.LatestWins
import BankingLedger.Shared.ParentLinks
import BankingLedger.Shared.FirstMatch
import BankingLedger.Shared.MessagePassing
import BankingLedger.Shared.CompletionOrder
import BankingLedger.Domain.Account
import BankingLedger.Domain.AccountSteps
import BankingLedger.Domain.AccountConcurrency
import BankingLedger.Domain.AccountRuns
import BankingLedger.Domain.Journal
import BankingLedger.Log.HashChain
import BankingLedger.Log.ChainRuns
import BankingLedger.Log.ParallelVerify
import BankingLedger.Log.TamperEvidence
import BankingLedger.Log.RingBuffer
import BankingLedger.Log.RingBufferQueue
import BankingLedger.Log.RingBufferThreads
import BankingLedger.Log.EventBus
import BankingLedger.Log.IdempotentProducer
import BankingLedger.Log.FencingToken
import BankingLedger.Log.TransactionalProducer
import BankingLedger.Log.Signing
import BankingLedger.Log.EventStore
import BankingLedger.Log.WriteAheadLog
import BankingLedger.Log.WalCodec
import BankingLedger.Log.WalReplay
import BankingLedger.Log.WalRecovery
import BankingLedger.Log.WalDamage
import BankingLedger.Log.Commands
import BankingLedger.Log.ReadModel
import BankingLedger.Log.DependencyGraph
import BankingLedger.Service.AccountService
import BankingLedger.Service.EventBusWiring
import BankingLedger.Service.Choreography
import BankingLedger.Service.ChoreographyDelivery
import BankingLedger.Service.ChoreographySteps
import BankingLedger.Service.ChoreographySagas
import BankingLedger.Service.Idempotency
import BankingLedger.Service.CircuitBreaker
import BankingLedger.Service.Postings
import BankingLedger.Service.AccountOperations
import BankingLedger.Service.SharedAccounts
import BankingLedger.Service.LedgerService
import BankingLedger.Service.Saga
import BankingLedger.Service.SagaRuns
import BankingLedger.Service.SagaFailures
import BankingLedger.Service.SagaCompensation
import BankingLedger.Service.LedgerSteps
import BankingLedger.Service.LedgerConcurrency
import BankingLedger.Api.Handlers
import BankingLedger.Api.Outcomes
import BankingLedger.Api.AccountRequests
import BankingLedger.Api.Reversal
import BankingLedger.Api.Currencies
import BankingLedger.Api.Refusals
import BankingLedger.Api.Reconciliation
import BankingLedger.Api.TransferSteps
import BankingLedger.Api.TransferConcurrency
import BankingLedger.Api.TransferRefinement
import BankingLedger.Api.ReversalSteps
import BankingLedger.Api.RepeatedReversals
import BankingLedger.Api.JournalOrder
import BankingLedger.Api.Locks
import BankingLedger.Api.Closing
import BankingLedger.Api.SharedBreaker
import BankingLedger.Api.Transactions
import BankingLedger.Service.Rbac
import BankingLedger.Service.IdentityService
import BankingLedger.Service.IdentifierHistory
import BankingLedger.Api.Router
import BankingLedger.Api.Authorization
import BankingLedger.Api.IdentifierVersions
import BankingLedger.Api.IdentifierVerification
import BankingLedger.Service.LedgerRefinement
import BankingLedger.Service.LedgerTransactions
import BankingLedger.Store.Accounts
import BankingLedger.Store.HashBlocks
import BankingLedger.Store.Persistence
import BankingLedger.Store.JournalRows
import BankingLedger.Store.Restarts
import BankingLedger.Store.Schema
import BankingLedger.Domain.ChartOfAccounts
import BankingLedger.Log.ConsumerGroup
import BankingLedger.Service.ChoreographyBus
import BankingLedger.Service.ChoreographyBusRuns
import BankingLedger.Service.DeadlockDetector
import BankingLedger.Service.DistributedState
import BankingLedger.Service.Outbox
import BankingLedger.Domain.JournalEntries
import BankingLedger.Domain.TrialBalance
import BankingLedger.Api.TransferEffect
import BankingLedger.Log.BatchVerify
import BankingLedger.Log.Redactions
import BankingLedger.Log.TamperedBlocks
import BankingLedger.Log.ChainProofs
import BankingLedger.Log.AuditReport
import BankingLedger.Log.Preimage
import BankingLedger.Service.Backoff
import BankingLedger.Service.BreakerRuns
import BankingLedger.Service.Bulkhead
import BankingLedger.Service.RetentionWindow
import BankingLedger.Service.ChoreographyTrace
import BankingLedger.Log.WalBursts
import BankingLedger.Shared.CappedLevel
import BankingLedger.Shared.LastEntries
import BankingLedger.Shared.Monitor
import BankingLedger.Shared.BoundedDecimal
import BankingLedger.Shared.OrderStatistics
import BankingLedger.Service.TokenBucket
import BankingLedger.Service.LatencyHistogram
import BankingLedger.Service.TransferCondition
import BankingLedger.Service.ChoreographyBalances
import BankingLedger.Service.SagaRedefinition
import BankingLedger.Service.TemporaryAudit
import BankingLedger.Api.SubjectHeader
import BankingLedger.Domain.Money
import BankingLedger.Shared.Rounding
import BankingLedger.Shared.Binary64
import BankingLedger.Log.LatencyHistogram
import BankingLedger.Service.ChoreographySystem
import BankingLedger.Service.ChoreographyRedelivery
import BankingLedger.Service.ChoreographyStages
import BankingLedger.Service.ChoreographyOutcomes
import BankingLedger.Service.FairTransferQueue
import BankingLedger.Service.TokenRate
import BankingLedger.Shared.Delegation
import BankingLedger.Api.RoleRequests
import BankingLedger.Api.RoleDelegation
import BankingLedger.Shared.Streams
import BankingLedger.Log.ReadModelOrder
import BankingLedger.Shared.CompareAndSwap
import BankingLedger.Service.AtomicDebit
import BankingLedger.Shared.KeyedHash
import BankingLedger.Log.SignedRecords
import BankingLedger.Api.AuditTrail
import BankingLedger.Domain.MoneyRounding
import BankingLedger.Shared.Epochs
import BankingLedger.Service.GoldenSignals
import BankingLedger.Service.IncidentDetection
import BankingLedger.Shared.Movers
import BankingLedger.Service.SignalRecording
import BankingLedger.Log.HistogramThreads
import BankingLedger.Shared.FixedPoint
import BankingLedger.Api.AmountTexts
