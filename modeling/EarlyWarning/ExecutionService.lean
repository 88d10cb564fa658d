/-
# `ExecutionService` — running a rule

`app/execution_service.py` and the context manager of `app/execution_lock.py`, on a
session: find the rule, take its lease, attempt the rule until an attempt is final,
write what the last attempt produced in one transaction, give the lease back.

The definitions follow the source statement by statement, `try` for `try`.  Log lines
are not modelled, but what they read is: the handler of `_execute_rule_once` reads
`rule.id` for its log line, and that read may go to the database.
-/
import EarlyWarning.Executor

namespace EarlyWarning

open Lib

def RULE_EXECUTION_FAILURE : String := "规则执行失败，请检查数据源和 SMTP 配置"

variable (libs : Libraries) (env : RunEnv)

/-- Continue with a value or raise. -/
def liftExcept {α : Type} : Except PyExc α → Svc α
  | .ok a => pure a
  | .error exc => throw exc

/-! ## Dependencies -/

/-- `_get_enabled_data_source` -/
def getEnabledDataSource (rule : AlertRule) : Svc SqlDataSource := do
  sessionSelect env
  let w ← get
  match w.store.work.sqlDataSources.find? fun source => source.id = rule.dataSourceId with
  | none => throw (configurationError "规则关联的数据源不存在" (by decide))
  | some source =>
      if source.enabled then
        return source
      else
        throw (configurationError "规则关联的数据源已禁用" (by decide))

/-- `_get_enabled_smtp_config` -/
def getEnabledSmtpConfig : Svc SmtpConfig := do
  sessionSelect env
  let w ← get
  match (w.store.work.smtpConfigs.filter (·.enabled)).take 2 with
  | [] => throw (configurationError "未配置可用的 SMTP 服务" (by decide))
  | [config] => return config
  | _ => throw (configurationError "启用的 SMTP 配置冲突" (by decide))

/-! ## Suppression -/

/-- `_row_suppression_key` -/
def rowSuppressionKey (row : Row) (fieldName : String) : String :=
  match row.value fieldName with
  | .none => ""
  | value => PyStr.strip value.pyStr

/-- `_get_suppression_record` -/
def getSuppressionRecord (ruleId : Nat) (key : String) : Svc (Option AlertSuppression) := do
  sessionSelect env
  let w ← get
  return w.store.work.findSuppression ruleId key

def modifyFilterState (f : SuppressionState → SuppressionState) : Svc Unit :=
  modify fun w => { w with filterState := w.filterState.map f }

/-- The row is kept. -/
def keepRow (row : Row) : Svc Bool := do
  noteAttempt fun r => { r with decisions := r.decisions ++ [(row, true)] }
  return true

/-- The row is withheld. -/
def withholdRow (row : Row) : Svc Bool := do
  noteAttempt fun r => { r with decisions := r.decisions ++ [(row, false)] }
  return false

/-- One turn of the loop of `filter_rows`. -/
def filterRow (rule : AlertRule) (cutoff : DateTime) (row : Row) : Svc Bool := do
  let key := rowSuppressionKey row rule.suppressionKeyField
  if key = "" then
    keepRow row
  else
    let suppression ← getSuppressionRecord env rule.id key
    let w ← get
    if w.filterState.any (fun state => key ∈ state.seenInRun) ∨
        suppression.any (fun record => cutoff ≤ record.lastSeenAt) then
      modifyFilterState fun state =>
        { state with suppressedKeys := state.suppressedKeys ++ [key] }
      withholdRow row
    else
      modifyFilterState fun state =>
        { state with newKeys := state.newKeys ++ [key], seenInRun := key :: state.seenInRun }
      keepRow row

/-- `filter_rows` -/
def filterRows (rule : AlertRule) (cutoff : DateTime) : List Row → Svc (List Row)
  | [] => return []
  | row :: rest => do
      let kept ← filterRow env rule cutoff row
      let filteredRows ← filterRows rule cutoff rest
      return if kept then row :: filteredRows else filteredRows

/-- `now - timedelta(hours=window)` -/
def suppressionCutoff (now : DateTime) (windowHours : Int) : Except PyExc DateTime := do
  let window ← DateTime.timedelta (windowHours * DateTime.hour)
  DateTime.add now (-window)

/-- `_build_suppression_filter` -/
def buildSuppressionFilter (attempt : AttemptEnv) (rule : AlertRule) :
    Svc (Option (List Row → Svc (List Row))) := do
  modify fun w => { w with filterState := none }
  if rule.suppressDuplicates ∧ rule.suppressionKeyField ≠ "" then
    noteAttempt fun r => { r with now := some attempt.now }
    let cutoff ← liftExcept (suppressionCutoff attempt.now rule.suppressionWindowHours)
    modify fun w => { w with filterState := some { now := attempt.now } }
    return some (filterRows env rule cutoff)
  else
    return none

/-- One turn of the loop of `_persist_suppression_state`. -/
def persistSuppressionKey (ruleId : Nat) (now : DateTime) (key : String) : Svc Unit := do
  match ← getSuppressionRecord env ruleId key with
  | none =>
      sessionAdd (.insertSuppression
        { id := 0, ruleId, suppressionKey := key, firstSeenAt := now, lastSeenAt := now
          hitCount := 1 })
  | some record => sessionAdd (.updateSuppression record.id now (record.hitCount + 1))

/-- `_persist_suppression_state` -/
def persistSuppressionState (ruleId : Nat) (state : SuppressionState) : Svc Unit :=
  (state.newKeys ++ state.suppressedKeys).forM (persistSuppressionKey env ruleId state.now)

/-! ## One attempt -/

/-- The `try` block of `_execute_rule_once`. -/
def attemptRule (attempt : AttemptEnv) (ruleId : Nat) : Svc ExecutionAttempt := do
  let rule ← readRule env ruleId
  let dataSource ← getEnabledDataSource env rule
  let smtpConfig ← getEnabledSmtpConfig env
  let suppressionFilter ← buildSuppressionFilter env attempt rule
  let sqlClient ← liftExcept (attempt.buildSqlClient dataSource)
  let mailer ← liftExcept (attempt.buildSmtpMailer smtpConfig)
  let result ← execute libs sqlClient mailer rule suppressionFilter
  let w ← get
  return { result, suppressionState := w.filterState }

/-- The handlers of `_execute_rule_once`. -/
def handleAttemptFailure (ruleId : Nat) (exc : PyExc) : Svc ExecutionAttempt := do
  if exc.cls = .configurationError then
    noteAttempt fun r => { r with caught := some exc }
    return { result :=
      { status := .failed, errorType := "ConfigurationError", errorMessage := some exc.text } }
  else if exc.isException then
    let _ ← readRule env ruleId
    noteAttempt fun r => { r with caught := some exc }
    return { result :=
      { status := .failed, errorType := exc.typeName
        errorMessage := some (publicErrorSummary exc RULE_EXECUTION_FAILURE) } }
  else
    throw exc

/-- `_execute_rule_once` -/
def executeRuleOnce (ruleId : Nat) : Svc ExecutionAttempt := do
  let w ← get
  let attempt := env.attempt w.attempts.length
  set { w with attempts := {} :: w.attempts }
  let executionAttempt ←
    tryCatch (attemptRule libs env attempt ruleId) (handleAttemptFailure env ruleId)
  noteAttempt fun r => { r with returned := some executionAttempt }
  return executionAttempt

/-! ## Retrying -/

/-- `_is_retryable_result` -/
def isRetryableResult (result : ExecutionResult) : Bool :=
  if result.status ≠ .failed then false
  else if result.sqlstate ≠ "" then
    result.sqlstate.startsWith "08" || result.sqlstate ∈ ["40001", "HYT00", "HYT01"]
  else
    result.errorType ∈
      ["ConnectionError", "MailSendError", "OSError", "RuntimeError", "TimeoutError"]

/-- `a or b`, for two strings. -/
def orElse (a b : String) : String := if a ≠ "" then a else b

/-- `_with_exhausted_retry_message` -/
def withExhaustedRetryMessage (result : ExecutionResult) (attemptsUsed : Nat) :
    ExecutionResult :=
  let retryCount := attemptsUsed - 1
  if retryCount = 0 ∨ !isRetryableResult result then result
  else
    let message := orElse (orElse (result.errorMessage.getD "") result.errorType) "规则执行失败"
    { result with errorMessage := some (message ++ s!"（已重试 {retryCount} 次）") }

/-- `sleep_fn(seconds)` -/
def sleepFn (seconds : Rat) : Svc Unit := do
  let w ← get
  set { w with sleeps := seconds :: w.sleeps }
  match env.sleep w.sleeps.length with
  | none => return
  | some exc => throw exc

/-- The loop `for attempt in range(attempt, attempt + remaining)`: the last result and
suppression state, and `attempts_used`. -/
def attemptLoop (ruleId : Nat) (retryDelaySeconds : Rat) :
    (attempt remaining : Nat) → Svc (ExecutionAttempt × Nat)
  | attempt, 0 => do
      -- only an empty range leaves `result` unset
      return ({ result :=
        { status := .failed, errorType := "RuntimeError", errorMessage := some "规则执行失败" } },
        attempt - 1)
  | attempt, remaining + 1 => do
      let executionAttempt ← executeRuleOnce libs env ruleId
      if !isRetryableResult executionAttempt.result || remaining == 0 then
        return (executionAttempt, attempt)
      if retryDelaySeconds > 0 then
        sleepFn env retryDelaySeconds
      attemptLoop ruleId retryDelaySeconds (attempt + 1) remaining

/-- `max(1, max_attempts)` -/
def totalAttempts (maxAttempts : Int) : Nat := (max 1 maxAttempts).toNat

/-! ## Persistence -/

/-- `_build_execution_log`; the id is the database's to give.  The source computes the
duration in floating point, whose rounding is not modelled. -/
def buildExecutionLog (ruleId : Nat) (triggerType : TriggerType) (result : ExecutionResult)
    (startedAt finishedAt : DateTime) : ExecutionLog :=
  { id := 0, ruleId, triggerType
    status := result.status
    startedAt, finishedAt
    rowCount := result.rowCount
    emailCount := result.emailCount
    durationMs := max 0 ((finishedAt - startedAt) / 1000)
    errorType := result.errorType
    errorMessage := result.errorMessage.getD "" }

/-- `_build_mail_log`; the id is the database's to give. -/
def buildMailLog (executionLogId : Nat) (mailResult : ExecutionMailResult) : MailLog :=
  let (status, errorMessage) :=
    if mailResult.result.success then
      (MailStatus.success, "")
    else if mailResult.result.partialSuccess then
      (.partialFailed, SMTP_PARTIAL_FAILURE)
    else
      (.failed, SMTP_SEND_FAILURE)
  { id := 0, executionLogId
    recipients := PyStr.join "," mailResult.message.recipients
    ccRecipients := PyStr.join "," mailResult.message.ccRecipients
    subject := mailResult.message.subject
    status, errorMessage }

/-- `if suppression_state is not None and result.status == SUCCESS: …` -/
def updateSuppression (ruleId : Nat) (attempt : ExecutionAttempt) : Svc Unit :=
  match attempt.suppressionState with
  | some state =>
      if attempt.result.status = .success then
        persistSuppressionState env ruleId state
      else
        pure ()
  | none => pure ()

/-- The log, its mail logs and the commit. -/
def writeLogs (log : ExecutionLog) (mailResults : List ExecutionMailResult) :
    Svc ExecutionLog := do
  sessionAdd (.insertExecutionLog log)
  sessionFlush env
  let w ← get
  mailResults.forM fun mailResult =>
    sessionAdd (.insertMailLog (buildMailLog w.executionLogId mailResult))
  sessionCommit env
  sessionSelect env
  return { log with id := w.executionLogId }

/-- The `try` block of `persist_execution_result`. -/
def writeExecutionResult (ruleId : Nat) (triggerType : TriggerType)
    (attempt : ExecutionAttempt) : Svc ExecutionLog := do
  let rule ← readRule env ruleId
  updateSuppression env rule.id attempt
  writeLogs env
    (buildExecutionLog rule.id triggerType attempt.result env.startedAt env.finishedAt)
    attempt.result.mailResults

/-- `except Exception: session.rollback(); raise` -/
def rollbackAndRaise {α : Type} (exc : PyExc) : Svc α := do
  if exc.isException then
    sessionRollback env
  throw exc

/-- `persist_execution_result` -/
def persistExecutionResult (ruleId : Nat) (triggerType : TriggerType)
    (attempt : ExecutionAttempt) : Svc ExecutionLog :=
  tryCatch (writeExecutionResult env ruleId triggerType attempt) (rollbackAndRaise env)

/-! ## The lease -/

/-- The statement of `rule_execution_lease` and its commit; its `rowcount`. -/
def acquireLease (row : RuleExecutionLease) : Svc Nat := do
  let w ← get
  sessionExecute env fun w =>
    { w with store.work.leases := (acquireStatement w.store.work.leases row).1 }
  sessionCommit env
  return (acquireStatement w.store.work.leases row).2

/-- The `try` block of `_release_rule_execution_lease`. -/
def releaseLease (ruleId : Nat) : Svc Unit := do
  sessionRollback env
  sessionExecute env fun w =>
    { w with store.work.leases := releaseStatement w.store.work.leases ruleId env.ownerToken }
  sessionCommit env

/-- `_release_rule_execution_lease` -/
def releaseRuleExecutionLease (ruleId : Nat) : Svc Unit :=
  tryCatch (releaseLease env ruleId) fun exc => do
    sessionRollback env
    throw exc

/-- What happens before the `yield` of `rule_execution_lease`. -/
def enterLease (ruleId : Nat) : Svc Unit := do
  let row ← liftExcept (newLease ruleId env.ownerToken env.leaseSeconds env.acquiredAt)
  let rowcount ← tryCatch (acquireLease env row) (rollbackAndRaise env)
  if rowcount ≠ 1 then
    throw (ruleExecutionInProgressError ruleId)

/-- An exception of the body goes on, whatever becomes of the release. -/
def releaseAndRaise {α : Type} (ruleId : Nat) (exc : PyExc) : Svc α := do
  tryCatch (releaseRuleExecutionLease env ruleId) fun _ => pure ()
  throw exc

/-- `with rule_execution_lease(...): body` -/
def ruleExecutionLease {α : Type} (ruleId : Nat) (body : Svc α) : Svc α := do
  enterLease env ruleId
  let result ← tryCatch body (releaseAndRaise env ruleId)
  releaseRuleExecutionLease env ruleId
  return result

/-! ## The entry point -/

/-- A request to run a rule. -/
structure RunRequest where
  ruleId : Nat
  triggerType : TriggerType := .manual
  maxAttempts : Int := 3
  retryDelaySeconds : Rat := 1

/-- The body of the `with` statement of `execute_rule_by_id`. -/
def executeLeasedRule (request : RunRequest) : Svc ExecutionLog := do
  let (attempt, attemptsUsed) ← attemptLoop libs env request.ruleId
    request.retryDelaySeconds 1 (totalAttempts request.maxAttempts)
  let result := withExhaustedRetryMessage attempt.result attemptsUsed
  persistExecutionResult env request.ruleId request.triggerType { attempt with result }

/-- The rule is looked up and must not be archived. -/
def loadActiveRule (ruleId : Nat) : Svc Unit := do
  match ← sessionGetRule env ruleId with
  | none => throw (ruleNotFoundError ruleId)
  | some rule =>
      if rule.archivedAt.isSome then
        throw (ruleNotFoundError ruleId)

/-- `execute_rule_by_id` -/
def executeRuleById (request : RunRequest) : Svc ExecutionLog := do
  loadActiveRule env request.ruleId
  ruleExecutionLease env request.ruleId (executeLeasedRule libs env request)

end EarlyWarning
