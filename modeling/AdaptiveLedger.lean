import AdaptiveLedger.AccountingCore.Aggregation
import AdaptiveLedger.AccountingCore.Canonical
import AdaptiveLedger.AccountingCore.Spelling
import AdaptiveLedger.Retries
import AdaptiveLedger.Books
import AdaptiveLedger.Capacity
import AdaptiveLedger.Currencies
import AdaptiveLedger.Idempotency
import AdaptiveLedger.Isolation
import AdaptiveLedger.BoundRelay
import AdaptiveLedger.Linearization
import AdaptiveLedger.LockOrder
import AdaptiveLedger.Outbox
import AdaptiveLedger.Reconciliation
import AdaptiveLedger.Precision
import AdaptiveLedger.Progress
import AdaptiveLedger.Settlement
import AdaptiveLedger.ProjectionPaths
import AdaptiveLedger.Refusals
import AdaptiveLedger.Reports
import AdaptiveLedger.Readers
import AdaptiveLedger.Undisturbed
import AdaptiveLedger.Convergence
import AdaptiveLedger.Validation
import AdaptiveLedger.Verdicts
import AdaptiveLedger.Webhook
import AdaptiveLedger.WellFormed
import AdaptiveLedger.Schedule
import AdaptiveLedger.MaxAttempts
