/-
# `Migration` — the schema that every start of the program establishes

`init_db` of `app/db.py`, for SQLite.  In one transaction it creates the tables of the models
that are absent, adds the columns that older versions did not have, and repairs the rows that
two new unique indexes would not allow.

The tables of the models come from `app/models.py`: what SQLAlchemy creates, and the default
that a model declares for a column.  Columns with a computed default (the times) and those
without one are the same here, because none of them is ever added to a table that exists.  The
constraints of a table other than its columns are left out.
-/
import EarlyWarning.Models
import EarlyWarning.Lib.GroupMax
import EarlyWarning.Lib.Sqlite
import EarlyWarning.Lib.Transaction

namespace EarlyWarning.Migration

open Lib Lib.Sqlite Lib.Connection

/-! ## The models -/

structure ModelColumn where
  name : String
  /-- the field is not `Optional` -/
  notNull : Bool := true
  /-- what the model declares, as it is stored -/
  default : Option Value := none

/-- The column in `CREATE TABLE`; the defaults of the models are the program's and not the
table's. -/
def ModelColumn.ddl (c : ModelColumn) : Column := { name := c.name, notNull := c.notNull }

structure ModelTable where
  name : String
  columns : List ModelColumn
  indexes : List (String × Index)

def ModelTable.names (m : ModelTable) : List String := m.columns.map ModelColumn.name

/-- A field with `index=True`. -/
def fieldIndex (table column : String) : Index := { table, columns := [column] }

/-- A field with `index=True, unique=True`. -/
def uniqueFieldIndex (table column : String) : Index :=
  { table, columns := [column], unique := true }

def adminUser : ModelTable where
  name := "adminuser"
  columns := [
    { name := "id" }, { name := "username" }, { name := "password_hash" },
    { name := "session_version", default := some (.number 1) }, { name := "created_at" }]
  indexes := [("ix_adminuser_username", uniqueFieldIndex "adminuser" "username")]

def sqlDataSource : ModelTable where
  name := "sqldatasource"
  columns := [
    { name := "id" }, { name := "name" }, { name := "host" },
    { name := "port", default := some (.number 1433) }, { name := "database" },
    { name := "username" }, { name := "encrypted_password" },
    { name := "enabled", default := some (.number 1) },
    { name := "connect_timeout_seconds", default := some (.number 10) },
    { name := "odbc_driver", default := some (.text "ODBC Driver 18 for SQL Server") },
    { name := "server_override", default := some (.text "") },
    { name := "encrypt", default := some (.text "yes") },
    { name := "trust_server_certificate", default := some (.text "no") },
    { name := "extra_params", default := some (.text "") },
    { name := "created_at" }, { name := "updated_at" }]
  indexes := [("ix_sqldatasource_name", uniqueFieldIndex "sqldatasource" "name")]

def smtpConfig : ModelTable where
  name := "smtpconfig"
  columns := [
    { name := "id" }, { name := "host" }, { name := "port", default := some (.number 587) },
    { name := "username" }, { name := "encrypted_password" }, { name := "sender" },
    { name := "use_tls", default := some (.number 1) },
    { name := "use_ssl", default := some (.number 0) },
    { name := "timeout_seconds", default := some (.number 10) },
    { name := "enabled", default := some (.number 1) }, { name := "updated_at" }]
  indexes := []

def alertRule : ModelTable where
  name := "alertrule"
  columns := [
    { name := "id" }, { name := "name" }, { name := "data_source_id" }, { name := "sql_text" },
    { name := "cron_expression" }, { name := "recipients" },
    { name := "cc_recipients", default := some (.text "") }, { name := "subject_template" },
    { name := "body_template" }, { name := "send_mode", default := some (.text "SUMMARY") },
    { name := "query_timeout_seconds", default := some (.number 30) },
    { name := "max_rows", default := some (.number 500) },
    { name := "enabled", default := some (.number 1) },
    { name := "notes", default := some (.text "") },
    { name := "dynamic_recipient_field", default := some (.text "") },
    { name := "dynamic_cc_field", default := some (.text "") },
    { name := "suppress_duplicates", default := some (.number 0) },
    { name := "suppression_key_field", default := some (.text "") },
    { name := "suppression_window_hours", default := some (.number 24) },
    { name := "created_at" },
    { name := "archived_at", notNull := false, default := some .null }, { name := "updated_at" }]
  indexes := [("ix_alertrule_name", fieldIndex "alertrule" "name")]

def ruleExecutionLease : ModelTable where
  name := "ruleexecutionlease"
  columns := [
    { name := "rule_id" }, { name := "owner_token" }, { name := "acquired_at" },
    { name := "expires_at" }]
  indexes := []

def workerHeartbeat : ModelTable where
  name := "workerheartbeat"
  columns := [
    { name := "id", default := some (.number 1) }, { name := "worker_id" },
    { name := "started_at" }, { name := "last_seen_at" },
    { name := "last_sync_ok", default := some (.number 1) },
    { name := "last_error", default := some (.text "") }]
  indexes := []

def alertSuppression : ModelTable where
  name := "alertsuppression"
  columns := [
    { name := "id" }, { name := "rule_id" }, { name := "suppression_key" },
    { name := "first_seen_at" }, { name := "last_seen_at" },
    { name := "hit_count", default := some (.number 1) }]
  indexes := [
    ("ix_alertsuppression_rule_id", fieldIndex "alertsuppression" "rule_id"),
    ("ix_alertsuppression_suppression_key", fieldIndex "alertsuppression" "suppression_key")]

def alertRuleVersion : ModelTable where
  name := "alertruleversion"
  columns := [
    { name := "id" }, { name := "rule_id" }, { name := "version_number" },
    { name := "changed_by" }, { name := "snapshot_json" }, { name := "changed_at" }]
  indexes := [("ix_alertruleversion_rule_id", fieldIndex "alertruleversion" "rule_id")]

def executionLog : ModelTable where
  name := "executionlog"
  columns := [
    { name := "id" }, { name := "rule_id" }, { name := "trigger_type" },
    { name := "status", default := some (.text "RUNNING") }, { name := "started_at" },
    { name := "finished_at", notNull := false, default := some .null },
    { name := "row_count", default := some (.number 0) },
    { name := "email_count", default := some (.number 0) },
    { name := "duration_ms", default := some (.number 0) },
    { name := "error_type", default := some (.text "") },
    { name := "error_message", default := some (.text "") }]
  indexes := [
    ("ix_executionlog_rule_id", fieldIndex "executionlog" "rule_id"),
    ("ix_executionlog_started_at", fieldIndex "executionlog" "started_at"),
    ("ix_executionlog_status", fieldIndex "executionlog" "status")]

def mailLog : ModelTable where
  name := "maillog"
  columns := [
    { name := "id" }, { name := "execution_log_id" }, { name := "recipients" },
    { name := "cc_recipients", default := some (.text "") }, { name := "subject" },
    { name := "status" }, { name := "error_message", default := some (.text "") },
    { name := "sent_at" }]
  indexes := [
    ("ix_maillog_execution_log_id", fieldIndex "maillog" "execution_log_id"),
    ("ix_maillog_sent_at", fieldIndex "maillog" "sent_at"),
    ("ix_maillog_status", fieldIndex "maillog" "status")]

/-- `SQLModel.metadata.sorted_tables` -/
def modelTables : List ModelTable :=
  [adminUser, smtpConfig, sqlDataSource, workerHeartbeat, alertRule, alertRuleVersion,
    alertSuppression, executionLog, ruleExecutionLease, mailLog]

/-! ## The program -/

inductive InitError
  /-- the environment raised it -/
  | raised (exc : PyExc)
  | sql (e : SqlError)
  | runtimeError (text : String)

/-- `isinstance(exc, Exception)` -/
def InitError.isException : InitError → Bool
  | .raised exc => exc.isException
  | _ => true

abbrev Migrate (α : Type) : Type := Conn Database InitError α

def statement (f : Database → Except SqlError Database) : Migrate Unit :=
  execute fun db => (f db).mapError .sql

/-- `inspector.get_table_names()` -/
def getTableNames : Migrate (List String) := inspect fun db => db.tables.keys

/-- The names in `inspector.get_columns(table)`. -/
def getColumns (table : String) : Migrate (List String) :=
  inspect fun db => ((db.tables.get? table).map Table.names).getD []

/-- `CREATE TABLE` and its `CREATE INDEX`. -/
def createModelTable (m : ModelTable) : Migrate Unit := do
  statement (Database.createTable m.name (m.columns.map ModelColumn.ddl))
  m.indexes.forM fun e => statement (Database.createIndex e.1 e.2)

/-- `SQLModel.metadata.create_all(connection)` -/
def createAll : Migrate Unit := do
  let tableNames ← getTableNames
  modelTables.forM fun m => if m.name ∈ tableNames then pure () else createModelTable m

/-- The columns that older versions did not have. -/
def columnsToAdd : String → List Column
  | "adminuser" =>
      [{ name := "session_version", notNull := true, default := .number 1 }]
  | "sqldatasource" =>
      [{ name := "odbc_driver", notNull := true,
         default := .text "ODBC Driver 18 for SQL Server" },
       { name := "server_override", notNull := true, default := .text "" },
       { name := "encrypt", notNull := true, default := .text "yes" },
       { name := "trust_server_certificate", notNull := true, default := .text "no" },
       { name := "extra_params", notNull := true, default := .text "" }]
  | "alertrule" =>
      [{ name := "dynamic_recipient_field", notNull := true, default := .text "" },
       { name := "dynamic_cc_field", notNull := true, default := .text "" },
       { name := "suppress_duplicates", notNull := true, default := .number 0 },
       { name := "suppression_key_field", notNull := true, default := .text "" },
       { name := "suppression_window_hours", notNull := true, default := .number 24 },
       { name := "archived_at", notNull := false }]
  | _ => []

/-- `if table in table_names:` and the columns that the table does not have yet. -/
def addColumns (tableNames : List String) (table : String) : Migrate Unit :=
  if table ∈ tableNames then do
    let existing ← getColumns table
    (columnsToAdd table).forM fun c =>
      if c.name ∈ existing then pure ()
      else statement (Database.alterTableAddColumn table c)
  else pure ()

/-- `enabled = 1` -/
def Enabled (r : Row) : Prop := r.value "enabled" = .number 1

instance (r : Row) : Decidable (Enabled r) := inferInstanceAs (Decidable (_ = _))

/-- What `ORDER BY updated_at DESC, id DESC` looks at. -/
def recency (r : Row) : Value ×ₗ Value := toLex (r.value "updated_at", r.value "id")

/-- `SELECT id FROM smtpconfig WHERE enabled = 1 ORDER BY updated_at DESC, id DESC LIMIT 1` -/
def lastEnabledId (t : Table) : Value :=
  ((firstDescending recency (t.rows.filter fun r => Enabled r)).map fun r =>
    r.value "id").getD .null

/-- `enabled = 1 AND id <> (SELECT …)`; nothing differs from `NULL`. -/
def outdated (t : Table) (r : Row) : Bool :=
  Enabled r ∧ r.value "id" ≠ .null ∧ lastEnabledId t ≠ .null ∧ r.value "id" ≠ lastEnabledId t

/-- `_SMTP_SINGLE_ENABLED_INDEX_STATEMENT` -/
def smtpSingleEnabled : String × Index :=
  ("uq_smtpconfig_single_enabled",
    { table := "smtpconfig", columns := ["enabled"], unique := true,
      only := some ("enabled", .number 1) })

def cleanSmtpConfig (tableNames : List String) : Migrate Unit :=
  if "smtpconfig" ∈ tableNames then do
    statement (Database.updateWhere "smtpconfig" "enabled" (.number 0) outdated)
    statement (Database.createIndexIfNotExists smtpSingleEnabled.1 smtpSingleEnabled.2)
  else pure ()

def heartbeatColumns : List String :=
  ["id", "worker_id", "started_at", "last_seen_at", "last_sync_ok", "last_error"]

def checkWorkerHeartbeat (tableNames : List String) : Migrate Unit :=
  if "workerheartbeat" ∈ tableNames then do
    let existing ← getColumns "workerheartbeat"
    let missing := heartbeatColumns.filter (· ∉ existing)
    if missing = [] then pure ()
    else
      let columns := ", ".intercalate (missing.insertionSort (· ≤ ·))
      throw (.runtimeError s!"workerheartbeat schema is incomplete: {columns}")
  else pure ()

/-- `_LOG_INDEX_STATEMENTS` -/
def logIndexes : List (String × Index) :=
  [("ix_executionlog_started_at", fieldIndex "executionlog" "started_at"),
    ("ix_executionlog_status", fieldIndex "executionlog" "status"),
    ("ix_executionlog_rule_id", fieldIndex "executionlog" "rule_id"),
    ("ix_maillog_sent_at", fieldIndex "maillog" "sent_at"),
    ("ix_maillog_status", fieldIndex "maillog" "status"),
    ("ix_maillog_execution_log_id", fieldIndex "maillog" "execution_log_id")]

def createLogIndexes (tableNames : List String) : Migrate Unit :=
  if "executionlog" ∈ tableNames ∧ "maillog" ∈ tableNames then
    logIndexes.forM fun e => statement (Database.createIndexIfNotExists e.1 e.2)
  else pure ()

def suppressionOf (r : Row) : Value × Value := (r.value "rule_id", r.value "suppression_key")

/-- `id NOT IN (SELECT MAX(id) FROM alertsuppression GROUP BY rule_id, suppression_key)` is what
goes; `id` is the primary key, so that it is never `NULL`. -/
def newestSuppressions (rows : List Row) : List Row :=
  keepGroupMaxima suppressionOf (fun r => r.value "id") rows

theorem newestSuppressions_sublist (rows : List Row) : (newestSuppressions rows).Sublist rows :=
  keepGroupMaxima_sublist

def suppressionUnique : String × Index :=
  ("uq_alertsuppression_rule_key",
    { table := "alertsuppression", columns := ["rule_id", "suppression_key"], unique := true })

def dedupeSuppressions (tableNames : List String) : Migrate Unit :=
  if "alertsuppression" ∈ tableNames then do
    statement (Database.deleteRows "alertsuppression" newestSuppressions newestSuppressions_sublist)
    statement (Database.createIndexIfNotExists suppressionUnique.1 suppressionUnique.2)
  else pure ()

/-- `_migrate_sqlite_schema` -/
def migrateSqliteSchema : Migrate Unit := do
  let tableNames ← getTableNames
  addColumns tableNames "adminuser"
  addColumns tableNames "sqldatasource"
  addColumns tableNames "alertrule"
  cleanSmtpConfig tableNames
  checkWorkerHeartbeat tableNames
  createLogIndexes tableNames
  dedupeSuppressions tableNames

/-- `init_db` -/
def initDb : Migrate Unit := withConnection do
  begin
  tryCatch (do createAll; migrateSqliteSchema) fun e => do
    if e.isException then rollback
    throw e
  commit

end EarlyWarning.Migration
