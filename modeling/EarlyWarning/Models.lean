/-
# `Models` — exceptions, times and the rows of the database

`app/models.py`, with the two Python notions every other module needs: the exceptions
a step may raise and the naive UTC datetimes of `utc_now()`.

Identifiers are natural numbers because a row that has been stored has one; a row that
has not been stored yet is not a row of a table here but an item the session still
holds (`Session`).
-/
import EarlyWarning.Lib.OrderedDict
import EarlyWarning.Lib.PyStr

namespace EarlyWarning

open Lib

/-! ## Exceptions -/

/-- The classes the handlers of the program tell apart. -/
inductive ExcClass
  | configurationError
  | ruleNotFoundError
  | ruleExecutionInProgressError
  /-- `jinja2.TemplateError` and its subclasses -/
  | templateError
  /-- `pyodbc.Error` and its subclasses -/
  | pyodbcError
  /-- any other subclass of `Exception` -/
  | exception
  /-- `KeyboardInterrupt`, `SystemExit` and what else is not an `Exception` -/
  | baseException
deriving DecidableEq, Repr

/-- An exception object, as far as the program reads it. -/
structure PyExc where
  cls : ExcClass
  /-- `type(exc).__name__` -/
  typeName : String
  /-- `str(exc)` -/
  text : String
  /-- `exc.args[0]`, when there is one and it is a string -/
  arg0 : Option String := none
  typeName_ne : typeName ≠ ""
  /-- only this program raises a `ConfigurationError`, and always with a text -/
  text_ne : cls = .configurationError → text ≠ ""
deriving DecidableEq

/-- `isinstance(exc, Exception)` -/
def PyExc.isException (exc : PyExc) : Bool := exc.cls != .baseException

def configurationError (message : String) (h : message ≠ "") : PyExc :=
  ⟨.configurationError, "ConfigurationError", message, some message, by decide, fun _ => h⟩

def ruleNotFoundError (ruleId : Nat) : PyExc :=
  ⟨.ruleNotFoundError, "RuleNotFoundError", s!"rule {ruleId} not found", none, by decide, nofun⟩

def ruleExecutionInProgressError (ruleId : Nat) : PyExc :=
  ⟨.ruleExecutionInProgressError, "RuleExecutionInProgressError",
    s!"rule {ruleId} is already running", none, by decide, nofun⟩

theorem exception_text_ne (text : String) :
    ExcClass.exception = .configurationError → text ≠ "" := nofun

def valueError (message : String) : PyExc :=
  ⟨.exception, "ValueError", message, some message, by decide, exception_text_ne message⟩

def overflowError (message : String) : PyExc :=
  ⟨.exception, "OverflowError", message, some message, by decide, exception_text_ne message⟩

theorem integrityError_typeName_ne : "IntegrityError" ≠ "" := by decide

/-! ## Times -/

/-- A naive `datetime`: microseconds since `datetime.min`. -/
abbrev DateTime := Int

namespace DateTime

/-- `datetime.max` -/
def maxValue : DateTime := 315537897599999999

def second : Int := 1000000

def hour : Int := 3600 * second

/-- `timedelta.max.days`, the bound on the magnitude of a `timedelta`. -/
def maxDays : Int := 999999999

/-- A `timedelta` of this many microseconds; its days must not exceed `maxDays`. -/
def timedelta (us : Int) : Except PyExc Int :=
  if (us / (24 * hour)).natAbs ≤ maxDays.natAbs then
    .ok us
  else
    .error (overflowError "days must have magnitude <= 999999999")

/-- `t + delta`, which must be a date of the years 1 to 9999. -/
def add (t : DateTime) (delta : Int) : Except PyExc DateTime :=
  if 0 ≤ t + delta ∧ t + delta ≤ maxValue then
    .ok (t + delta)
  else
    .error (overflowError "date value out of range")

end DateTime

/-! ## Enumerations -/

inductive SendMode
  | summary
  | perRow
deriving DecidableEq, Repr

inductive ExecutionStatus
  | running
  | success
  | failed
  | partialFailed
deriving DecidableEq, Repr

inductive TriggerType
  | scheduled
  | manual
deriving DecidableEq, Repr

inductive MailStatus
  | success
  | failed
  | partialFailed
deriving DecidableEq, Repr

/-! ## Tables -/

structure SqlDataSource where
  id : Nat
  name : String
  host : String
  port : Int := 1433
  database : String
  username : String
  encryptedPassword : String
  enabled : Bool := true
  connectTimeoutSeconds : Int := 10
  odbcDriver : String := "ODBC Driver 18 for SQL Server"
  serverOverride : String := ""
  encrypt : String := "yes"
  trustServerCertificate : String := "no"
  extraParams : String := ""
deriving DecidableEq

structure SmtpConfig where
  id : Nat
  host : String
  port : Int := 587
  username : String
  encryptedPassword : String
  sender : String
  useTls : Bool := true
  useSsl : Bool := false
  timeoutSeconds : Int := 10
  enabled : Bool := true
  updatedAt : DateTime
deriving DecidableEq

structure AlertRule where
  id : Nat
  name : String
  dataSourceId : Nat
  sqlText : String
  cronExpression : String
  recipients : String
  ccRecipients : String := ""
  subjectTemplate : String
  bodyTemplate : String
  sendMode : SendMode := .summary
  queryTimeoutSeconds : Int := 30
  maxRows : Int := 500
  enabled : Bool := true
  notes : String := ""
  dynamicRecipientField : String := ""
  dynamicCcField : String := ""
  suppressDuplicates : Bool := false
  suppressionKeyField : String := ""
  suppressionWindowHours : Int := 24
  createdAt : DateTime
  archivedAt : Option DateTime := none
  updatedAt : DateTime
deriving DecidableEq

structure RuleExecutionLease where
  ruleId : Nat
  ownerToken : String
  acquiredAt : DateTime
  expiresAt : DateTime
deriving DecidableEq

structure AlertSuppression where
  id : Nat
  ruleId : Nat
  suppressionKey : String
  firstSeenAt : DateTime
  lastSeenAt : DateTime
  hitCount : Int := 1
deriving DecidableEq

structure ExecutionLog where
  id : Nat
  ruleId : Nat
  triggerType : TriggerType
  status : ExecutionStatus
  startedAt : DateTime
  finishedAt : DateTime
  rowCount : Nat
  emailCount : Nat
  durationMs : Int
  errorType : String
  errorMessage : String
deriving DecidableEq

structure MailLog where
  id : Nat
  executionLogId : Nat
  recipients : String
  ccRecipients : String
  subject : String
  status : MailStatus
  errorMessage : String
deriving DecidableEq

end EarlyWarning
