import EarlyWarning.Lib.Run
import EarlyWarning.Lib.Unwinding
import EarlyWarning.Lib.Regex
import EarlyWarning.Lib.Odbc
import EarlyWarning.Lib.Wp
import EarlyWarning.Lib.OrderedDict
import EarlyWarning.Lib.PyStr
import EarlyWarning.Lib.PyInt
import EarlyWarning.Lib.PyText
import EarlyWarning.Lib.Json
import EarlyWarning.Lib.JsonRoundTrip
import EarlyWarning.Lib.JsonObject
import EarlyWarning.Lib.Locally
import EarlyWarning.Lib.Log
import EarlyWarning.Lib.Keyset
import EarlyWarning.Lib.Paging
import EarlyWarning.Lib.Like
import EarlyWarning.Lib.Column
import EarlyWarning.Lib.Lockout
import EarlyWarning.Lib.GroupMax
import EarlyWarning.Lib.Sqlite
import EarlyWarning.Lib.Transaction
import EarlyWarning.Lib.Words
import EarlyWarning.Lib.Calendar
import EarlyWarning.Lib.Csv
import EarlyWarning.Lib.Utf8
import EarlyWarning.Lib.UrlQuery
import EarlyWarning.Lib.JsNumber
import EarlyWarning.Models
import EarlyWarning.ExecutionLock
import EarlyWarning.LeaseProtocol
import EarlyWarning.SqlClient
import EarlyWarning.ConnectionString
import EarlyWarning.Mailer
import EarlyWarning.TemplateRenderer
import EarlyWarning.ResultTable
import EarlyWarning.ExecutionResult
import EarlyWarning.Session
import EarlyWarning.Executor
import EarlyWarning.ExecutionService
import EarlyWarning.SuppressionFilter
import EarlyWarning.Attempt
import EarlyWarning.Retry
import EarlyWarning.Persistence
import EarlyWarning.RuleRun
import EarlyWarning.LogConsistency
import EarlyWarning.RetrySafety
import EarlyWarning.AtomicPersistence
import EarlyWarning.MessageBatch
import EarlyWarning.Ledger
import EarlyWarning.FilterExact
import EarlyWarning.SuppressionMigration
import EarlyWarning.Migration
import EarlyWarning.SchemaUpgrade
import EarlyWarning.InitDb
import EarlyWarning.History
import EarlyWarning.SuppressionWindow
import EarlyWarning.SentWithinWindow
import EarlyWarning.AdminSession
import EarlyWarning.SessionProtocol
import EarlyWarning.SessionTimeout
import EarlyWarning.SessionInvalidation
import EarlyWarning.CsrfProtocol
import EarlyWarning.Archiving
import EarlyWarning.LogExport
import EarlyWarning.LogListing
import EarlyWarning.LogFilter
import EarlyWarning.CsvExport
import EarlyWarning.LogPages
import EarlyWarning.LogRetention
import EarlyWarning.Scheduler
import EarlyWarning.ScheduleFrame
import EarlyWarning.CronHint
import EarlyWarning.WorkerHealth
import EarlyWarning.WorkerLoop
import EarlyWarning.WorkerTrace
import EarlyWarning.WorkerHistory
import EarlyWarning.FormValues
import EarlyWarning.SmtpSettings
import EarlyWarning.RuleForm
import EarlyWarning.RuleImport
import EarlyWarning.RuleStore
import EarlyWarning.ImportAtomicity
import EarlyWarning.RuleExport
import EarlyWarning.RuleVersions
import EarlyWarning.VersionHistory
import EarlyWarning.RuleProtocol
import EarlyWarning.RuleSerial
import EarlyWarning.RuleRoundTrip
import EarlyWarning.RecipientText
import EarlyWarning.WindowRange
import EarlyWarning.LoginRateLimiter
import EarlyWarning.LimiterTable
import EarlyWarning.LimiterProtocol
import EarlyWarning.LimiterIsolation
import EarlyWarning.LoginTally
import EarlyWarning.LoginProtocol
import EarlyWarning.ErrorReporting
import EarlyWarning.RenderedData
import EarlyWarning.StructuredValue
import EarlyWarning.SensitiveKey
import EarlyWarning.Redaction
import EarlyWarning.LogLifecycle
import EarlyWarning.Lib.LevelOrder
import EarlyWarning.SqlGate
import EarlyWarning.SqlQuery
