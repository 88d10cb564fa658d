/-
# `SqlQuery` — what a server is asked

`PyodbcSqlServerClient.query` and `validate_syntax` of `app/sql_client.py`.  Both check the text
once more before they connect, and both take a semicolon off its end.  So what is executed on a
server is a query that passes the check, less its semicolon (`mem_query`, `mem_validateSyntax`).
Whatever has become of a rule, its text is executed when the server can be connected to, and the
limits on it are those of the forms (`stored_rule_asked`).

The driver is a library's (`Pyodbc`).  What it is given to execute stands beside the answer.
-/
import EarlyWarning.ConnectionString
import EarlyWarning.SqlGate

namespace EarlyWarning.SqlQuery

open Lib EarlyWarning.RuleStore EarlyWarning.SqlGate

/-! ## The driver -/

/-- What `import pyodbc` raises, and of a `ModuleNotFoundError` the name of the module. -/
structure ImportFailure where
  exc : PyExc
  moduleName : Option String

/-- A `cursor.execute`, with the connection it is made on. -/
structure Call where
  connectionString : String
  timeoutSeconds : Int
  sql : String
deriving DecidableEq

structure Pyodbc where
  /-- `import pyodbc` -/
  load : Except ImportFailure Unit
  /-- `pyodbc.connect(connection_string)`, with `connection.timeout` -/
  connect : String → Int → Except PyExc Unit
  /-- `cursor.execute(sql)`: the names of the columns, and the rows that can be fetched -/
  execute : Call → Except PyExc (List String × List (List SqlValue))
  /-- the end of the `with`, which commits -/
  close : Call → Except PyExc Unit

/-! ## The client -/

/-- `strip_single_trailing_semicolon` -/
def stripSingleTrailingSemicolon (sql : String) : String :=
  let strippedSql := sql.toList.rdropWhile PyStr.isSpace
  if strippedSql.getLast? = some ';' then
    String.ofList (strippedSql.dropLast.rdropWhile PyStr.isSpace)
  else String.ofList strippedSql

def runtimeError (message : String) : PyExc :=
  ⟨.exception, "RuntimeError", message, some message, by decide, exception_text_ne message⟩

section

variable {τ φ α : Type} (glot : SqlGlot τ) (libs : RuleLibraries φ) (pyodbc : Pyodbc)
  (client : PyodbcSqlServerClient)

def importPyodbc : Except PyExc Unit :=
  match pyodbc.load with
  | .ok () => .ok ()
  | .error failure =>
      if failure.moduleName = some "pyodbc" then
        .error (runtimeError "pyodbc is required to query SQL Server")
      else .error failure.exc

/-- The `with` of both methods: the answer, and what has been executed. -/
def onConnection (call : Call) (read : List String × List (List SqlValue) → Except PyExc α) :
    Except PyExc α × List Call :=
  match pyodbc.connect call.connectionString call.timeoutSeconds with
  | .error exc => (.error exc, [])
  | .ok () =>
      (do
        let cursor ← pyodbc.execute call
        let answer ← read cursor
        pyodbc.close call
        return answer, [call])

/-- What both methods do with a text: `batch` of it is executed. -/
def checkAndAsk (batch : String → String) (sql : String) (timeoutSeconds : Int)
    (read : List String × List (List SqlValue) → Except PyExc α) : Except PyExc α × List Call :=
  match validateText glot libs sql, importPyodbc pyodbc with
  | .error exc, _ => (.error exc, [])
  | .ok (), .error exc => (.error exc, [])
  | .ok (), .ok () =>
      onConnection pyodbc ⟨client.connectionString, timeoutSeconds,
        batch (stripSingleTrailingSemicolon sql)⟩ read

/-- `PyodbcSqlServerClient.query` -/
def query (sql : String) (timeoutSeconds maxRows : Int) : Except PyExc QueryResult × List Call :=
  if maxRows < 1 then (.error (valueError "max_rows must be a positive integer"), [])
  else
    checkAndAsk glot libs pyodbc client (fun executableSql => executableSql) sql timeoutSeconds
      fun cursor => rowsFromCursorLimited cursor.1 cursor.2 maxRows.toNat

def parseOnlyBatch (executableSql : String) : String :=
  "SET PARSEONLY ON;\n" ++ executableSql ++ ";\nSET PARSEONLY OFF;"

/-- `PyodbcSqlServerClient.validate_syntax` -/
def validateSyntax (sql : String) (timeoutSeconds : Int) : Except PyExc Unit × List Call :=
  checkAndAsk glot libs pyodbc client parseOnlyBatch sql timeoutSeconds fun _ => .ok ()

/-- The client as an execution has it. -/
def sqlClient : SqlClient := fun sql timeoutSeconds maxRows =>
  (query glot libs pyodbc client sql timeoutSeconds maxRows).1

end

/-! ## The semicolon -/

/-- The text ends in blanks and one semicolon at most more than `executableSql`. -/
def LessSemicolon (executableSql sql : String) : Prop :=
  ∃ before after : List Char, (∀ c ∈ before, PyStr.isSpace c = true) ∧
    (∀ c ∈ after, PyStr.isSpace c = true) ∧
    (sql.toList = executableSql.toList ++ before ++ ';' :: after ∨
      sql.toList = executableSql.toList ++ after)

theorem exists_rdropWhile (p : Char → Bool) (cs : List Char) :
    ∃ tail, cs = cs.rdropWhile p ++ tail ∧ ∀ c ∈ tail, p c = true := by
  refine ⟨cs.rtakeWhile p, (List.rdropWhile_append_rtakeWhile).symm, ?_⟩
  intro c hc
  exact List.mem_rtakeWhile_imp hc

theorem stripSingleTrailingSemicolon_less (sql : String) :
    LessSemicolon (stripSingleTrailingSemicolon sql) sql := by
  obtain ⟨after, hafter, hblanks⟩ := exists_rdropWhile PyStr.isSpace sql.toList
  unfold stripSingleTrailingSemicolon
  generalize sql.toList.rdropWhile PyStr.isSpace = strippedSql at hafter
  dsimp only
  split
  case isTrue hlast =>
    obtain ⟨body, rfl⟩ := List.getLast?_eq_some_iff.mp hlast
    obtain ⟨before, hbefore, hblanksBefore⟩ := exists_rdropWhile PyStr.isSpace body
    refine ⟨before, after, hblanksBefore, hblanks, .inl ?_⟩
    rw [List.dropLast_concat, String.toList_ofList, ← hbefore, hafter, List.append_assoc,
      List.singleton_append]
  case isFalse =>
    refine ⟨[], after, List.forall_mem_nil _, hblanks, .inr ?_⟩
    rw [String.toList_ofList, hafter]

example : stripSingleTrailingSemicolon "select 1 ; \n" = "select 1" := by decide +kernel

/-! ## What is executed -/

variable {τ φ α : Type} {glot : SqlGlot τ} {libs : RuleLibraries φ} {pyodbc pyodbc' : Pyodbc}
  {client : PyodbcSqlServerClient} {batch : String → String} {sql : String} {call : Call}
  {timeoutSeconds maxRows : Int} {queryResult : QueryResult} {rule : AlertRule}
  {read : List String × List (List SqlValue) → Except PyExc α}

theorem mem_onConnection {other : Call} (h : other ∈ (onConnection pyodbc call read).2) :
    other = call := by
  unfold onConnection at h
  split at h
  case h_1 => cases h
  case h_2 => exact List.mem_singleton.mp h

theorem mem_checkAndAsk
    (h : call ∈ (checkAndAsk glot libs pyodbc client batch sql timeoutSeconds read).2) :
    ReadOnlyQuery glot (.ofString sql) ∧
      call = ⟨client.connectionString, timeoutSeconds,
        batch (stripSingleTrailingSemicolon sql)⟩ := by
  unfold checkAndAsk at h
  split at h
  case h_1 => cases h
  case h_2 => cases h
  case h_3 hpassed _ => exact ⟨validateText_eq_ok.mp hpassed, mem_onConnection h⟩

/-- **What `query` executes.** -/
theorem mem_query (h : call ∈ (query glot libs pyodbc client sql timeoutSeconds maxRows).2) :
    ReadOnlyQuery glot (.ofString sql) ∧
      call = ⟨client.connectionString, timeoutSeconds, stripSingleTrailingSemicolon sql⟩ := by
  unfold query at h
  split at h
  case isTrue => cases h
  case isFalse => exact mem_checkAndAsk h

/-- **What `validate_syntax` executes.** -/
theorem mem_validateSyntax
    (h : call ∈ (validateSyntax glot libs pyodbc client sql timeoutSeconds).2) :
    ReadOnlyQuery glot (.ofString sql) ∧
      call = ⟨client.connectionString, timeoutSeconds,
        parseOnlyBatch (stripSingleTrailingSemicolon sql)⟩ :=
  mem_checkAndAsk h

theorem checkAndAsk_readOnly (hquery : ReadOnlyQuery glot (.ofString sql))
    (hload : pyodbc.load = .ok ()) :
    checkAndAsk glot libs pyodbc client batch sql timeoutSeconds read =
      onConnection pyodbc ⟨client.connectionString, timeoutSeconds,
        batch (stripSingleTrailingSemicolon sql)⟩ read := by
  have himport : importPyodbc pyodbc = .ok () := by rw [importPyodbc, hload]
  simp only [checkAndAsk, validateText_eq_ok.mpr hquery, himport]

theorem onConnection_calls (h : pyodbc.connect call.connectionString call.timeoutSeconds = .ok ()) :
    (onConnection pyodbc call read).2 = [call] := by
  rw [onConnection, h]

/-! ### The answer -/

theorem rows_length_le {columns : List String} {result : List (List SqlValue)} {limit : Nat}
    (h : rowsFromCursorLimited columns result limit = .ok queryResult) :
    queryResult.rows.length ≤ limit := by
  obtain ⟨rows, hrows, hdone⟩ := bind_eq_ok.mp h
  cases hdone
  have hlength := (mapM_eq_ok.mp hrows).length_eq
  rw [← hlength]
  exact List.length_take_le limit result

theorem onConnection_answer {answer : α} (h : (onConnection pyodbc call read).1 = .ok answer) :
    ∃ cursor, pyodbc.execute call = .ok cursor ∧ read cursor = .ok answer := by
  unfold onConnection at h
  split at h
  case h_1 => cases h
  case h_2 =>
    obtain ⟨cursor, hcursor, hrest⟩ := bind_eq_ok.mp h
    obtain ⟨read', hread, hclose⟩ := bind_eq_ok.mp hrest
    obtain ⟨-, -, hdone⟩ := bind_eq_ok.mp hclose
    cases hdone
    exact ⟨cursor, hcursor, hread⟩

/-- An answer is one of the server's to the query, cut off at the limit. -/
theorem query_answer
    (h : (query glot libs pyodbc client sql timeoutSeconds maxRows).1 = .ok queryResult) :
    ∃ cursor, pyodbc.execute
        ⟨client.connectionString, timeoutSeconds, stripSingleTrailingSemicolon sql⟩ = .ok cursor ∧
      rowsFromCursorLimited cursor.1 cursor.2 maxRows.toNat = .ok queryResult ∧
      queryResult.rows.length ≤ maxRows := by
  unfold query at h
  split at h
  case isTrue => cases h
  case isFalse hpositive =>
    unfold checkAndAsk at h
    split at h
    case h_1 => cases h
    case h_2 => cases h
    case h_3 =>
      obtain ⟨cursor, hcursor, hread⟩ := onConnection_answer h
      refine ⟨cursor, hcursor, hread, ?_⟩
      have hlength := rows_length_le hread
      omega

/-! ## Drivers that answer the same -/

/-- The drivers differ only in what they do with texts that are not queries that pass, less their
semicolons. -/
structure Agree (glot : SqlGlot τ) (pyodbc pyodbc' : Pyodbc) : Prop where
  load : pyodbc.load = pyodbc'.load
  connect : pyodbc.connect = pyodbc'.connect
  execute : ∀ sql call, ReadOnlyQuery glot (.ofString sql) →
    call.sql = stripSingleTrailingSemicolon sql → pyodbc.execute call = pyodbc'.execute call
  close : ∀ sql call, ReadOnlyQuery glot (.ofString sql) →
    call.sql = stripSingleTrailingSemicolon sql → pyodbc.close call = pyodbc'.close call

theorem Agree.query (h : Agree glot pyodbc pyodbc') :
    query glot libs pyodbc client sql timeoutSeconds maxRows =
      query glot libs pyodbc' client sql timeoutSeconds maxRows := by
  unfold SqlQuery.query checkAndAsk
  split
  case isTrue => rfl
  case isFalse =>
    have himport : importPyodbc pyodbc = importPyodbc pyodbc' := by
      simp only [importPyodbc, h.load]
    rw [himport]
    cases hpassed : validateText glot libs sql with
    | error exc => rfl
    | ok u =>
        have hquery : ReadOnlyQuery glot (.ofString sql) := validateText_eq_ok.mp hpassed
        cases importPyodbc pyodbc' with
        | error exc => rfl
        | ok v =>
            let call : Call :=
              ⟨client.connectionString, timeoutSeconds, stripSingleTrailingSemicolon sql⟩
            have hexecute : pyodbc.execute call = pyodbc'.execute call := h.execute sql _ hquery rfl
            have hclose : pyodbc.close call = pyodbc'.close call := h.close sql _ hquery rfl
            show onConnection pyodbc call _ = onConnection pyodbc' call _
            simp only [onConnection, h.connect, hexecute, hclose]

theorem Agree.sqlClient (h : Agree glot pyodbc pyodbc') :
    sqlClient glot libs pyodbc client = sqlClient glot libs pyodbc' client := by
  funext sql timeoutSeconds maxRows
  exact congrArg Prod.fst h.query

/-! ## The rules -/

/-- The query of the rule is executed, with its limits. -/
structure AskedOnce (glot : SqlGlot τ) (libs : RuleLibraries φ) (pyodbc : Pyodbc)
    (client : PyodbcSqlServerClient) (rule : AlertRule) : Prop where
  calls : (query glot libs pyodbc client rule.sqlText rule.queryTimeoutSeconds rule.maxRows).2 =
    [⟨client.connectionString, rule.queryTimeoutSeconds,
      stripSingleTrailingSemicolon rule.sqlText⟩]
  timeoutSeconds : 1 ≤ rule.queryTimeoutSeconds ∧ rule.queryTimeoutSeconds ≤ 600
  rows : ∀ queryResult, sqlClient glot libs pyodbc client rule.sqlText rule.queryTimeoutSeconds
    rule.maxRows = .ok queryResult → queryResult.rows.length ≤ 5000

theorem askedOnce_of_columns (h : RuleProtocol.ColumnsOk (gated glot libs) rule)
    (hload : pyodbc.load = .ok ())
    (hconnect : pyodbc.connect client.connectionString rule.queryTimeoutSeconds = .ok ()) :
    AskedOnce glot libs pyodbc client rule where
  calls := by
    have hquery : ReadOnlyQuery glot (.ofString rule.sqlText) :=
      accepted_iff_readOnlyQuery.mp h.sqlText
    have hpositive : ¬ rule.maxRows < 1 := not_lt.mpr h.maxRows.1
    rw [query, if_neg hpositive, checkAndAsk_readOnly hquery hload]
    exact onConnection_calls hconnect
  timeoutSeconds := h.queryTimeoutSeconds
  rows queryResult hanswer := by
    obtain ⟨-, -, -, hlength⟩ := query_answer hanswer
    have hlimit := h.maxRows.2
    omega

variable {ι : Type} [DecidableEq ι] {requests : ι → Request} {jinja : Jinja}

/-- In whatever order the steps of the requests come, the client executes the text of a stored rule,
and once, when the driver is there and the server can be connected to: for ten minutes at most, and
with 5000 rows at most.  Whatever the text, it executes nothing but a query that passes, less a
semicolon; so drivers that agree on these make the same executions of rules. -/
theorem stored_rule_asked {labels : List (RuleProtocol.Label ι)} {s : RuleProtocol.State ι}
    (hrun : fire (RuleProtocol.step (gated glot libs) requests)
      (RuleProtocol.start ι) labels = some s) :
    (∀ rule ∈ s.db.rules, ∀ pyodbc client, pyodbc.load = .ok () →
      pyodbc.connect client.connectionString rule.queryTimeoutSeconds = .ok () →
      AskedOnce glot libs pyodbc client rule) ∧
    (∀ pyodbc client sql timeoutSeconds maxRows,
      ∀ call ∈ (query glot libs pyodbc client sql timeoutSeconds maxRows).2,
        ReadOnlyQuery glot (.ofString sql) ∧ call.connectionString = client.connectionString ∧
          call.timeoutSeconds = timeoutSeconds ∧ LessSemicolon call.sql sql) ∧
    ∀ pyodbc pyodbc', Agree glot pyodbc pyodbc' → ∀ client mailer rule rowFilter,
      execute (executing glot libs jinja) (sqlClient glot libs pyodbc client) mailer rule
          rowFilter =
        execute (executing glot libs jinja) (sqlClient glot libs pyodbc' client) mailer rule
          rowFilter := by
  obtain ⟨hok, -⟩ := RuleProtocol.start_ok.run hrun
  refine ⟨fun rule hrule pyodbc client hload hconnect => ?_, ?_, ?_⟩
  · exact askedOnce_of_columns (hok.tables.columns rule hrule) hload hconnect
  · intro pyodbc client sql timeoutSeconds maxRows call hcall
    obtain ⟨hquery, rfl⟩ := mem_query hcall
    exact ⟨hquery, rfl, rfl, stripSingleTrailingSemicolon_less sql⟩
  · intro pyodbc pyodbc' hagree client mailer rule rowFilter
    rw [hagree.sqlClient]

/-- A driver whose server answers with one row. -/
def oneRowPyodbc : Pyodbc where
  load := .ok ()
  connect _ _ := .ok ()
  execute _ := .ok (["n"], [[.int 1]])
  close _ := .ok ()

def mainClient : PyodbcSqlServerClient := .ofDataSource mainSource "secret"

theorem stored_rule_asked_created :
    ∃ s, fire (RuleProtocol.step (gated (treeGlot plainQuery) plainLibraries)
        RuleProtocol.fourRequests) (RuleProtocol.start (Fin 4)) RuleProtocol.created = some s ∧
      s.db.rules ≠ [] ∧
      ∀ rule ∈ s.db.rules,
        AskedOnce (treeGlot plainQuery) plainLibraries oneRowPyodbc mainClient rule := by
  obtain ⟨s, hrun, hrules⟩ := created_run
  refine ⟨s, hrun, hrules, fun rule hrule => ?_⟩
  obtain ⟨hasked, -, -⟩ := @stored_rule_asked _ _ _ _ _ _ _ (fun _ text _ => .ok text) _ _ hrun
  exact hasked rule hrule oneRowPyodbc mainClient rfl rfl

end EarlyWarning.SqlQuery
