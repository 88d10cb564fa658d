/-
# `Executor` — one pass over one rule

`app/executor.py`.  `RuleExecutor.execute` validates the SQL, runs the query, filters
the rows, builds every message and only then sends them one by one; each of these steps
has its own way of failing, and every failure that is an `Exception` becomes a result.
What does not — `KeyboardInterrupt`, and an exception of the row filter — leaves
`execute` as it came.
-/
import EarlyWarning.Session

namespace EarlyWarning

open Lib

def SQL_QUERY_FAILURE : String := "SQL Server 查询失败，请检查数据源连接和查询配置"

/-- The third-party code an execution calls: Jinja, and the SQL parser behind
`validate_select_only_sql`, which raises or returns. -/
structure Libraries where
  jinja : Jinja
  validateSelectOnlySql : String → Except PyExc Unit

/-- `_parse_recipients` -/
def parseRecipients (value : String) : List String :=
  ((PyStr.splitClass (fun c => c == ',' || c == ';') value).map PyStr.strip).filter (· ≠ "")

/-- `_row_recipients` -/
def rowRecipients (row : Row) (fieldName : String) : List String :=
  if fieldName = "" then []
  else match row.value fieldName with
    | .none => []
    | value => parseRecipients value.pyStr

/-- `_exception_message` -/
def exceptionMessage (exc : PyExc) : String := if exc.text ≠ "" then exc.text else exc.typeName

/-- `public_error_summary`: the fallback, whatever the exception. -/
def publicErrorSummary (_exc : PyExc) (fallback : String) : String := fallback

/-! ## Building the messages -/

def messageContext (rule : AlertRule) (rows : List Row) : Context :=
  ((OrderedDict.empty.set "rule_name" (.text rule.name)).set "rows" (.rows rows)).set
    "row_count" (.count rows.length)

/-- The message of one row. -/
def buildRowMessage (libs : Libraries) (rule : AlertRule) (context : Context) (row : Row) :
    Except PyExc EmailMessage := do
  let rendered ← renderPerRow libs.jinja rule.subjectTemplate rule.bodyTemplate row context
  let dynamicRecipients := rowRecipients row rule.dynamicRecipientField
  let recipients :=
    if dynamicRecipients ≠ [] then dynamicRecipients else parseRecipients rule.recipients
  if recipients = [] then
    throw (valueError "recipients must not be empty")
  let dynamicCc := rowRecipients row rule.dynamicCcField
  let ccRecipients := if dynamicCc ≠ [] then dynamicCc else parseRecipients rule.ccRecipients
  return { recipients, ccRecipients, subject := rendered.subject, htmlBody := rendered.htmlBody }

/-- The message of a summary. -/
def buildSummaryMessage (libs : Libraries) (rule : AlertRule) (context : Context)
    (rows : List Row) : Except PyExc EmailMessage := do
  let recipients := parseRecipients rule.recipients
  if recipients = [] then
    throw (valueError "recipients must not be empty")
  let rendered ← renderSummary libs.jinja rule.subjectTemplate rule.bodyTemplate rows context
  return { recipients, ccRecipients := parseRecipients rule.ccRecipients
           subject := rendered.subject, htmlBody := rendered.htmlBody }

/-- `_build_messages` -/
def buildMessages (libs : Libraries) (rule : AlertRule) (rows : List Row) :
    Except PyExc (List EmailMessage) :=
  let context := messageContext rule rows
  match rule.sendMode with
  | .summary => do return [← buildSummaryMessage libs rule context rows]
  | .perRow => rows.mapM (buildRowMessage libs rule context)

/-! ## Sending them -/

/-- What `_send_message` keeps of the mailer's answer. -/
def normalizeResult (result : MailSendResult) : MailSendResult :=
  if result.success then
    { success := true }
  else if result.partialSuccess then
    { success := false, errorMessage := SMTP_PARTIAL_FAILURE, partialSuccess := true }
  else
    { success := false, errorMessage := SMTP_SEND_FAILURE }

/-- `_send_message`, for the `n`-th message of the attempt. -/
def sendMessage (mailer : Mailer) (n : Nat) (message : EmailMessage) :
    Svc ExecutionMailResult := do
  noteAttempt fun r => { r with handed := r.handed ++ [mailer.deliver n message] }
  match mailer.send n message with
  | .ok result => return { message, result := normalizeResult result }
  | .error exc =>
      if exc.isException then
        return { message, result :=
          { success := false, errorMessage := publicErrorSummary exc SMTP_SEND_FAILURE } }
      else
        throw exc

def sendMessages (mailer : Mailer) : Nat → List EmailMessage → Svc (List ExecutionMailResult)
  | _, [] => return []
  | n, message :: rest => do
      let mailResult ← sendMessage mailer n message
      let mailResults ← sendMessages mailer (n + 1) rest
      return mailResult :: mailResults

def successfulCount (mailResults : List ExecutionMailResult) : Nat :=
  mailResults.countP fun mailResult => mailResult.result.success

/-- `_status_for_mail_results` -/
def statusForMailResults (mailResults : List ExecutionMailResult) : ExecutionStatus :=
  if successfulCount mailResults = mailResults.length then
    .success
  else if successfulCount mailResults = 0 ∧
      ¬ mailResults.any fun mailResult => mailResult.result.partialSuccess then
    .failed
  else
    .partialFailed

/-- `_combined_error_message` -/
def combinedErrorMessage (mailResults : List ExecutionMailResult) : String :=
  if mailResults.any fun mailResult => mailResult.result.partialSuccess then
    SMTP_PARTIAL_FAILURE
  else if mailResults.any fun mailResult =>
      !mailResult.result.success && mailResult.result.errorMessage ≠ "" then
    SMTP_SEND_FAILURE
  else
    "one or more emails failed"

/-- The result of an attempt that sent its messages. -/
def sentResult (rowCount : Nat) (mailResults : List ExecutionMailResult) : ExecutionResult :=
  let hasFailure := successfulCount mailResults < mailResults.length
  { status := statusForMailResults mailResults
    rowCount
    mailCount := successfulCount mailResults
    errorType := if hasFailure then "MailSendError" else ""
    errorMessage := if hasFailure then some (combinedErrorMessage mailResults) else none
    mailResults }

/-! ## The pass -/

/-- A failed result for an exception that was caught. -/
def failedResult (exc : PyExc) (errorMessage : String) (rowCount : Nat) (sqlstate : String) :
    ExecutionResult :=
  { status := .failed, rowCount, errorType := exc.typeName
    errorMessage := some errorMessage, sqlstate }

/-- `except Exception as exc:` around a step that has raised `exc`. -/
def handleException (exc : PyExc) (result : ExecutionResult) : Svc ExecutionResult := do
  if exc.isException then
    noteAttempt fun r => { r with caught := some exc }
    return result
  else
    throw exc

/-- `if row_filter is not None: rows = row_filter(rows)` -/
def applyRowFilter (rowFilter : Option (List Row → Svc (List Row))) (rows : List Row) :
    Svc (List Row) :=
  match rowFilter with
  | some filterRows => filterRows rows
  | none => pure rows

/-- The part of `execute` after the filter. -/
def buildAndSend (libs : Libraries) (mailer : Mailer) (rule : AlertRule) (rowCount : Nat)
    (rows : List Row) : Svc ExecutionResult := do
  if rows = [] then
    return { status := .success, rowCount }
  match buildMessages libs rule rows with
  | .error exc => handleException exc (failedResult exc (exceptionMessage exc) rowCount "")
  | .ok messages =>
      noteAttempt fun r => { r with built := some messages }
      let mailResults ← sendMessages mailer 0 messages
      return sentResult rowCount mailResults

/-- `RuleExecutor.execute` -/
def execute (libs : Libraries) (sqlClient : SqlClient) (mailer : Mailer) (rule : AlertRule)
    (rowFilter : Option (List Row → Svc (List Row))) : Svc ExecutionResult := do
  match libs.validateSelectOnlySql rule.sqlText with
  | .error exc => handleException exc (failedResult exc (exceptionMessage exc) 0 "")
  | .ok _ =>
      noteAttempt fun r => { r with queried := true }
      match sqlClient rule.sqlText rule.queryTimeoutSeconds rule.maxRows with
      | .error exc =>
          handleException exc
            (failedResult exc (publicErrorSummary exc SQL_QUERY_FAILURE) 0 (odbcSqlstate exc))
      | .ok queryResult =>
          noteAttempt fun r => { r with fetched := some queryResult.rows }
          let rows ← applyRowFilter rowFilter queryResult.rows
          noteAttempt fun r => { r with filtered := some rows }
          buildAndSend libs mailer rule queryResult.rows.length rows

end EarlyWarning
