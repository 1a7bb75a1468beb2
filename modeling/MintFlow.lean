import MintFlow.Lib.Table
import MintFlow.Lib.Whitespace
import MintFlow.Lib.Program
import MintFlow.Lib.ReadCommitted
import MintFlow.Lib.Tracking
import MintFlow.Lib.Outbox
import MintFlow.Lib.AtMostOnce
import MintFlow.Lib.UniqueIndex
import MintFlow.Lib.Store
import MintFlow.Lib.Knowledge
import MintFlow.Lib.Integrity
import MintFlow.Lib.Ledger
import MintFlow.Lib.Readings
import MintFlow.Lib.Calendar
import MintFlow.Lib.Months
import MintFlow.Lib.Decimal
import MintFlow.Lib.Rounding
import MintFlow.Lib.DecimalContext
import MintFlow.Lib.Numeral
import MintFlow.Lib.Binary64
import MintFlow.Lib.Grouping
import MintFlow.Lib.Base64
import MintFlow.Lib.Json
import MintFlow.Lib.Relational
import MintFlow.Lib.Snapshots
import MintFlow.Python
import MintFlow.Isoformat
import MintFlow.Domain.Values
import MintFlow.Domain.Receipt
import MintFlow.Domain.CaptureDraft
import MintFlow.Domain.Expense
import MintFlow.Domain.User
import MintFlow.Persistence.DraftRecord
import MintFlow.Domain.DraftLifecycle
import MintFlow.Domain.LateRecognition
import MintFlow.Telegram.Conversation
import MintFlow.Analytics.Periods
import MintFlow.Analytics.Aggregates
import MintFlow.Persistence.Database
import MintFlow.Receipts.Recognition
import MintFlow.Receipts.Selection
import MintFlow.Receipts.Azure
import MintFlow.Telegram.Outgoing
import MintFlow.Persistence.Statements
import MintFlow.Persistence.Snapshots
import MintFlow.Application.ConfirmDraft
import MintFlow.Application.EditExpense
import MintFlow.Http.Capture
import MintFlow.Telegram.Parsing
import MintFlow.Telegram.Updates
import MintFlow.Telegram.CaptureFlow
import MintFlow.Telegram.Handler
import MintFlow.Telegram.ReceiptWorker
import MintFlow.Telegram.Messages
import MintFlow.Persistence.StatementSpecs
import MintFlow.Application.Alone
import MintFlow.Application.ConfirmSpec
import MintFlow.Application.AuditTrail
import MintFlow.Telegram.Handling
import MintFlow.Telegram.HandlingSteps
import MintFlow.Telegram.WorkerSteps
import MintFlow.Telegram.Coherence
import MintFlow.Application.ConfirmTotal
import MintFlow.Telegram.Answers
import MintFlow.Telegram.Retention
import MintFlow.Telegram.Joined
import MintFlow.Telegram.Journey
import MintFlow.Telegram.Finishing
import MintFlow.Rates.Rates
import MintFlow.Rates.Refresh
import MintFlow.Rates.Exactness
import MintFlow.Rates.Monotone
import MintFlow.Rates.Feeds
import MintFlow.Analytics.Dashboard
import MintFlow.Analytics.Reconciliation
import MintFlow.Analytics.Buckets
import MintFlow.Analytics.Converting
import MintFlow.Analytics.Conversion
import MintFlow.Analytics.ConvertedDashboard
import MintFlow.Web.Charts
import MintFlow.Web.Formatting
import MintFlow.Web.ExpenseForm
import MintFlow.Web.AmountReaders
import MintFlow.Web.StaleForm
import MintFlow.Web.DashboardView
import MintFlow.Web.DashboardRenders
import MintFlow.Application.ExpenseHistory
import MintFlow.Application.HistoryCursor
import MintFlow.Persistence.ExpenseHistory
import MintFlow.Analytics.LargestExpense
import MintFlow.Http.ExpenseHistory
import MintFlow.Http.HistoryQuery
import MintFlow.Web.Query
import MintFlow.Web.HistoryView
import MintFlow.Web.DrillThrough
import MintFlow.Persistence.Schema
import MintFlow.Persistence.AccountDeletion
import MintFlow.Persistence.Footprint
import MintFlow.Authentication.RateLimit
import MintFlow.Authentication.SignIn
import MintFlow.Authentication.SignInRuns
import MintFlow.Sessions.Requests
import MintFlow.Sessions.ReceiptRows
import MintFlow.Sessions.DelayNotices
import MintFlow.Sessions.DelayNoticeRuns
import MintFlow.Sessions.ReceiptQueue
import MintFlow.Sessions.UniqueRows
import MintFlow.Sessions.RecognitionResults
import MintFlow.Sessions.RemovedImages
import MintFlow.Accounts.Database
import MintFlow.Accounts.Programs
import MintFlow.Accounts.Standing
import MintFlow.Accounts.Effects
import MintFlow.Accounts.Writes
import MintFlow.Accounts.Kept
import MintFlow.Accounts.WebSessions
import MintFlow.Accounts.Links
import MintFlow.Accounts.Erasure
import MintFlow.Accounts.Deletion
import MintFlow.Accounts.Tokens
import MintFlow.Accounts.Retention
import MintFlow.Accounts.AuditTrail
