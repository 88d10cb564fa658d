/-
# `LogListing` — the pages of the two logs

`list_execution_logs` and `list_mail_logs` of `app/log_service.py`.  A statement is a list of
conditions, and `_paginate` runs it twice: it counts its rows, and then reads a page of them in
descending order of their time.  The export of the same module orders rows of one time by their
ids; here their order is left to the database, query by query.

An integer that SQLite has no room for cannot be bound, and a pattern may be too long for LIKE;
either way the query raises.
-/
import EarlyWarning.FormValues
import EarlyWarning.LogExport
import EarlyWarning.Lib.Like
import EarlyWarning.Lib.Paging

namespace EarlyWarning.LogListing

open Lib LogExport

/-! ## Statements -/

/-- What a query raises. -/
inductive QueryError
  /-- `Python int too large to convert to SQLite INTEGER` -/
  | overflowError
  /-- `LIKE or GLOB pattern too complex` -/
  | operationalError
deriving DecidableEq, Repr

/-- An argument of `where`. -/
inductive Condition (ρ : Type)
  | columnEquals (test : ρ → Bool)
  /-- a column equals an integer -/
  | integerEquals (column : ρ → Int) (parameter : Int)
  /-- `or_` of `contains`, for one keyword -/
  | anyContains (columns : List (ρ → String)) (keyword : String)

abbrev Statement (ρ : Type) := List (Condition ρ)

/-- `SQLITE_MAX_LIKE_PATTERN_LENGTH`, in bytes -/
def likePatternLimit : Nat := 50000

def patternTooLong (keyword : String) : Bool := likePatternLimit < keyword.utf8ByteSize + 2

section

variable {ρ : Type}

def Condition.matches (row : ρ) : Condition ρ → Bool
  | .columnEquals test => test row
  | .integerEquals column parameter => column row = parameter
  | .anyContains columns keyword => columns.any fun column =>
      Like.like (column row).toList (Like.containsPattern keyword)

/-- The conditions on a row are read in their order, up to the first that fails. -/
def raisesOn (row : ρ) : Statement ρ → Bool
  | [] => false
  | .anyContains columns keyword :: rest =>
      (columns ≠ [] && patternTooLong keyword) ||
        ((Condition.anyContains columns keyword).matches row && raisesOn row rest)
  | condition :: rest => condition.matches row && raisesOn row rest

/-- The integers of the statement can be bound. -/
def Condition.Binds : Condition ρ → Prop
  | .integerEquals _ parameter => IsInt64 parameter
  | .columnEquals _ | .anyContains _ _ => True

instance (condition : Condition ρ) : Decidable condition.Binds :=
  match condition with
  | .integerEquals _ parameter => inferInstanceAs (Decidable (IsInt64 parameter))
  | .columnEquals _ | .anyContains _ _ => inferInstanceAs (Decidable True)

def Statement.matches (statement : Statement ρ) (row : ρ) : Bool :=
  statement.all fun condition => condition.matches row

/-- The rows that a statement selects. -/
def Statement.exec (statement : Statement ρ) (table : List ρ) : Except QueryError (List ρ) :=
  if ∃ condition ∈ statement, ¬ condition.Binds then .error .overflowError
  else if table.any fun row => raisesOn row statement then .error .operationalError
  else .ok (table.filter statement.matches)

/-- The statement raises nothing on the table. -/
def Statement.Runs (statement : Statement ρ) (table : List ρ) : Prop :=
  (∀ condition ∈ statement, condition.Binds) ∧ ∀ row ∈ table, raisesOn row statement = false

end

/-! ## Filters -/

structure LogFilters where
  executionStatus : String := ""
  triggerType : String := ""
  ruleId : String := ""
  mailStatus : String := ""
  keyword : String := ""
deriving DecidableEq

/-- `ExecutionStatus.value` -/
def executionStatusValue : ExecutionStatus → String
  | .running => "running"
  | .success => "success"
  | .failed => "failed"
  | .partialFailed => "partial_failed"

/-- `TriggerType.value` -/
def triggerTypeValue : TriggerType → String
  | .scheduled => "scheduled"
  | .manual => "manual"

/-- `MailStatus.value` -/
def mailStatusValue : MailStatus → String
  | .success => "success"
  | .failed => "failed"
  | .partialFailed => "partial_failed"

def executionStatuses : List ExecutionStatus := [.running, .success, .failed, .partialFailed]

def triggerTypes : List TriggerType := [.scheduled, .manual]

def mailStatuses : List MailStatus := [.success, .failed, .partialFailed]

/-- The condition on an enumeration, when the filter is one of its values. -/
def whereEnum {ρ ε : Type} (values : List ε) (value : ε → String) (column : ρ → ε)
    (filter : String) : Statement ρ :=
  if filter ∈ values.map value then [.columnEquals fun row => value (column row) = filter] else []

/-- `int(filters.rule_id)`, and -1 when it raises `ValueError`. -/
def ruleIdParameter (ruleId : String) : Int := (PyInt.int? ruleId).getD (-1)

def whereRuleId (ruleId : String) : Statement ExecutionLog :=
  if ruleId ≠ "" then [.integerEquals (fun log => log.ruleId) (ruleIdParameter ruleId)] else []

def whereKeyword {ρ : Type} (columns : List (ρ → String)) (keyword : String) : Statement ρ :=
  if keyword ≠ "" then [.anyContains columns keyword] else []

def executionLogStatement (filters : LogFilters) : Statement ExecutionLog :=
  whereEnum executionStatuses executionStatusValue ExecutionLog.status filters.executionStatus ++
    whereEnum triggerTypes triggerTypeValue ExecutionLog.triggerType filters.triggerType ++
    whereRuleId filters.ruleId ++
    whereKeyword [ExecutionLog.errorType, ExecutionLog.errorMessage] filters.keyword

def mailLogStatement (filters : LogFilters) : Statement StoredMailLog :=
  whereEnum mailStatuses mailStatusValue (fun log => log.status) filters.mailStatus ++
    whereKeyword [fun log => log.recipients, fun log => log.ccRecipients, fun log => log.subject,
      fun log => log.errorMessage] filters.keyword

/-! ## `_paginate` -/

def minPageSize : Int := 10

def maxPageSize : Int := 200

structure Page (ρ : Type) where
  items : List ρ
  page : Int
  pageSize : Int
  total : Nat
  totalPages : Int
  hasPrevious : Bool
  hasNext : Bool
deriving DecidableEq

/-- How the database orders the rows of a query. -/
abbrev QueryOrder {ρ : Type} (timestamp : ρ → DateTime) :=
  (rows : List ρ) → Answer timestamp rows

def normalizedPageSize (pageSize : Int) : Int := min (max pageSize minPageSize) maxPageSize

/-- `max(1, ceil(total / size))`.  A table of SQLite has too few rows for the float to be
rounded to an integer. -/
def totalPages (total : Nat) (size : Int) : Int := max 1 ((total + size - 1) / size)

def normalizedPage (page totalPages : Int) : Int := min (max page 1) totalPages

def paginate {ρ : Type} {timestamp : ρ → DateTime} (table : List ρ) (statement : Statement ρ)
    (orderBy : QueryOrder timestamp) (page pageSize : Int) : Except QueryError (Page ρ) := do
  let total := (← statement.exec table).length
  let size := normalizedPageSize pageSize
  let totalPages := totalPages total size
  let page := normalizedPage page totalPages
  let items := (orderBy (← statement.exec table)).slice ((page - 1) * size).toNat size.toNat
  return {
    items, page, pageSize := size, total, totalPages
    hasPrevious := page > 1
    hasNext := page < totalPages }

def listExecutionLogs (table : List ExecutionLog) (filters : LogFilters)
    (orderBy : QueryOrder ExecutionLog.startedAt) (page pageSize : Int) :
    Except QueryError (Page ExecutionLog) :=
  paginate table (executionLogStatement filters) orderBy page pageSize

def listMailLogs (table : List StoredMailLog) (filters : LogFilters)
    (orderBy : QueryOrder StoredMailLog.sentAt) (page pageSize : Int) :
    Except QueryError (Page StoredMailLog) :=
  paginate table (mailLogStatement filters) orderBy page pageSize

/-! ## Paging through a log -/

/-- A log with its primary key. -/
structure LogTable {ρ : Type} (columns : Columns ρ) where
  rows : List ρ
  primaryKey : (rows.map columns.idColumn).Nodup

/-- The rows over the first pages, queried one after another. -/
def rowsOverPages {ρ : Type} (query : Int → Except QueryError (Page ρ)) :
    Nat → Except QueryError (List ρ)
  | 0 => .ok []
  | count + 1 => do
      let rows ← rowsOverPages query count
      let page ← query (count + 1)
      return rows ++ page.items

/-- What is shown for a request. -/
structure Shown {ρ : Type} (query : Int → Except QueryError (Page ρ)) (last requested : Int)
    (page : Page ρ) : Prop where
  answered : query requested = .ok page
  totalPages : page.totalPages = last
  clamped : page.page = min (max requested 1) last
  as_clamped : query page.page = .ok page
  hasPrevious : page.hasPrevious ↔ 1 ≤ page.page - 1
  hasNext : page.hasNext ↔ page.page + 1 ≤ last

/-- Every request is answered with a page of `1..totalPages`, and the pages together show every
matching row once, the latest first, however the database orders rows of one time in each of the
queries. -/
def PagesThrough {ρ : Type} (timestamp : ρ → DateTime) (matching : List ρ)
    (list : QueryOrder timestamp → Int → Except QueryError (Page ρ)) : Prop :=
  ∃ totalPages : Nat, 1 ≤ totalPages ∧
    (∀ orderBy requested, ∃ page, Shown (list orderBy) totalPages requested page) ∧
    ∀ orders : Int → QueryOrder timestamp, ∃ rows,
      rowsOverPages (fun page => list (orders page) page) totalPages = .ok rows ∧
        rows.Perm matching ∧ rows.Pairwise fun a b => timestamp b ≤ timestamp a

section

variable {ρ : Type} {timestamp : ρ → DateTime} {columns : Columns ρ} {table : List ρ}
  {statement : Statement ρ} {orderBy : QueryOrder timestamp} {page pageSize size : Int}
  {total : Nat}

/-! ## The arithmetic of the pages -/

theorem normalizedPageSize_bounds (pageSize : Int) :
    10 ≤ normalizedPageSize pageSize ∧ normalizedPageSize pageSize ≤ 200 := by
  simp only [normalizedPageSize, minPageSize, maxPageSize]
  omega

theorem one_le_totalPages (total : Nat) (size : Int) : 1 ≤ totalPages total size :=
  Int.le_max_left _ _

theorem normalizedPage_bounds {total : Int} (h : 1 ≤ total) (page : Int) :
    1 ≤ normalizedPage page total ∧ normalizedPage page total ≤ total := by
  simp only [normalizedPage]
  omega

theorem normalizedPage_eq_self {total : Int} (hone : 1 ≤ page) (hle : page ≤ total) :
    normalizedPage page total = page := by
  simp only [normalizedPage]
  omega

theorem total_le (total : Nat) (hsize : 0 < size) :
    (total : Int) ≤ totalPages total size * size := by
  have hdiv : (total : Int) ≤ (total + size - 1) / size * size := by
    have hmod := Int.emod_lt_of_pos (total + size - 1) hsize
    have hsplit := Int.emod_add_ediv_mul (total + size - 1) size
    omega
  exact Int.le_trans hdiv (Int.mul_le_mul_of_nonneg_right (Int.le_max_right _ _)
    (Int.le_of_lt hsize))

/-- The pages have room for the rows. -/
theorem totalPages_eq_natCast (total : Nat) (pageSize : Int) :
    ∃ count : Nat, totalPages total (normalizedPageSize pageSize) = count ∧ 1 ≤ count ∧
      total ≤ count * (normalizedPageSize pageSize).toNat := by
  have hbounds := normalizedPageSize_bounds pageSize
  have hone := one_le_totalPages total (normalizedPageSize pageSize)
  have hle : (total : Int) ≤ _ * normalizedPageSize pageSize := total_le total (by omega)
  refine ⟨(totalPages total (normalizedPageSize pageSize)).toNat, by omega, by omega, ?_⟩
  rw [← Int.toNat_mul (by omega) (by omega)]
  omega

/-! ## One query -/

theorem exec_of_runs (h : statement.Runs table) :
    statement.exec table = .ok (table.filter statement.matches) := by
  have hbinds : ¬ ∃ condition ∈ statement, ¬ condition.Binds := by
    rintro ⟨condition, hmem, hnot⟩
    exact hnot (h.1 condition hmem)
  have hany : (table.any fun row => raisesOn row statement) = false := by
    rw [List.any_eq_false]
    intro row hrow
    simp [h.2 row hrow]
  rw [Statement.exec, if_neg hbinds, hany]
  rfl

theorem exec_of_not_runs (h : ¬ statement.Runs table) :
    ∃ error, statement.exec table = .error error := by
  by_cases hbinds : ∃ condition ∈ statement, ¬ condition.Binds
  · exact ⟨.overflowError, if_pos hbinds⟩
  · have hany : (table.any fun row => raisesOn row statement) = true := by
      by_contra hany
      refine h ⟨fun condition hmem => ?_, fun row hrow => ?_⟩
      · by_contra hnot
        exact hbinds ⟨condition, hmem, hnot⟩
      · simp only [Bool.not_eq_true, List.any_eq_false] at hany
        exact hany row hrow
    exact ⟨.operationalError, by rw [Statement.exec, if_neg hbinds, if_pos hany]⟩

/-- The page that `_paginate` returns. -/
def pageOf (matching : List ρ) (orderBy : QueryOrder timestamp) (page pageSize : Int) : Page ρ :=
  let size := normalizedPageSize pageSize
  let totalPages := totalPages matching.length size
  let page := normalizedPage page totalPages
  { items := (orderBy matching).slice ((page - 1) * size).toNat size.toNat
    page, pageSize := size, total := matching.length, totalPages
    hasPrevious := page > 1
    hasNext := page < totalPages }

theorem paginate_of_runs (h : statement.Runs table) (orderBy : QueryOrder timestamp)
    (page pageSize : Int) : paginate table statement orderBy page pageSize =
      .ok (pageOf (table.filter statement.matches) orderBy page pageSize) := by
  simp only [paginate, exec_of_runs h]
  rfl

theorem paginate_of_not_runs (h : ¬ statement.Runs table) (orderBy : QueryOrder timestamp)
    (page pageSize : Int) :
    ∃ error, paginate table statement orderBy page pageSize = .error error := by
  obtain ⟨error, herror⟩ := exec_of_not_runs h
  refine ⟨error, ?_⟩
  simp only [paginate, herror]
  rfl

theorem paginate_shown (h : statement.Runs table) (orderBy : QueryOrder timestamp)
    (requested pageSize : Int) :
    Shown (fun page => paginate table statement orderBy page pageSize)
      (totalPages (table.filter statement.matches).length (normalizedPageSize pageSize)) requested
      (pageOf (table.filter statement.matches) orderBy requested pageSize) := by
  generalize htotal : totalPages (table.filter statement.matches).length
    (normalizedPageSize pageSize) = total
  have hone : 1 ≤ total := htotal ▸ one_le_totalPages _ _
  obtain ⟨hlow, hhigh⟩ := normalizedPage_bounds hone requested
  have hpage : (pageOf (table.filter statement.matches) orderBy requested pageSize).page =
      normalizedPage requested total := by
    simp only [pageOf, htotal]
  refine ⟨paginate_of_runs h orderBy requested pageSize, htotal, hpage, ?_, ?_, ?_⟩
  · rw [paginate_of_runs h, hpage]
    simp only [pageOf, htotal, normalizedPage_eq_self hlow hhigh]
  · rw [hpage]
    simp only [pageOf, htotal, decide_eq_true_eq]
    omega
  · rw [hpage]
    simp only [pageOf, htotal, decide_eq_true_eq]
    exact Int.lt_iff_add_one_le

/-! ## All of them -/

theorem rowsOverPages_eq (h : statement.Runs table) (orders : Int → QueryOrder timestamp)
    (pageSize : Int) {count : Nat} (hcount : (count : Int) ≤
      totalPages (table.filter statement.matches).length (normalizedPageSize pageSize)) :
    rowsOverPages (fun page => paginate table statement (orders page) page pageSize) count =
      .ok (pages (fun i => orders (i + 1) (table.filter statement.matches))
        (normalizedPageSize pageSize).toNat count) := by
  induction count with
  | zero => rfl
  | succ count ih =>
      have hbounds := normalizedPageSize_bounds pageSize
      have hpage : normalizedPage (count + 1) _ = count + 1 :=
        normalizedPage_eq_self (by omega) hcount
      have hoffset : ((count + 1 - 1 : Int) * normalizedPageSize pageSize).toNat =
          count * (normalizedPageSize pageSize).toNat := by
        rw [Int.add_sub_cancel, Int.toNat_mul (by omega) (by omega), Int.toNat_natCast]
      have hquery := paginate_of_runs h (orders (count + 1)) (count + 1) pageSize
      simp only [rowsOverPages]
      rw [ih (by omega), hquery]
      simp only [pageOf, hpage, hoffset, pages_succ]
      rfl

/-- Any answers to the one query are answers of a database. -/
theorem exists_orders {matching : List ρ} (answers : Nat → Answer timestamp matching) :
    ∃ orders : Int → QueryOrder timestamp, ∀ i : Nat, orders (i + 1) matching = answers i := by
  classical
  refine ⟨fun page rows =>
    if h : rows = matching then h ▸ answers (page - 1).toNat else Answer.sorted timestamp rows, ?_⟩
  intro i
  simp

theorem pagesThrough_iff (log : LogTable columns) (statement : Statement ρ) (pageSize : Int) :
    PagesThrough timestamp (log.rows.filter statement.matches)
        (fun orderBy page => paginate log.rows statement orderBy page pageSize) ↔
      statement.Runs log.rows ∧ ¬ Separated timestamp (log.rows.filter statement.matches)
        (normalizedPageSize pageSize).toNat := by
  have hbounds := normalizedPageSize_bounds pageSize
  have hnodup : (log.rows.filter statement.matches).Nodup :=
    (List.Nodup.of_map _ log.primaryKey).filter _
  obtain ⟨count, htotal, hone, hcount⟩ :=
    totalPages_eq_natCast (log.rows.filter statement.matches).length pageSize
  have hsize : 0 < (normalizedPageSize pageSize).toNat := by omega
  have hperm : (∀ answers : Nat → Answer timestamp (log.rows.filter statement.matches),
      (pages answers (normalizedPageSize pageSize).toNat count).Perm
        (log.rows.filter statement.matches)) ↔ _ := pages_perm_iff hnodup hsize hcount
  constructor
  · rintro ⟨last, _, hshown, hpages⟩
    have hruns : statement.Runs log.rows := by
      by_contra hruns
      obtain ⟨page, hpage⟩ := hshown (Answer.sorted timestamp) 1
      obtain ⟨error, herror⟩ := paginate_of_not_runs hruns (Answer.sorted timestamp) 1 pageSize
      exact absurd (herror.symm.trans hpage.answered) (by simp)
    refine ⟨hruns, hperm.mp fun answers => ?_⟩
    have hlast : last = count := by
      obtain ⟨page, hpage⟩ := hshown (Answer.sorted timestamp) 1
      have hpage' := (paginate_of_runs hruns (Answer.sorted timestamp) 1 pageSize).symm.trans
        hpage.answered
      have htotal' := hpage.totalPages
      rw [← Except.ok.inj hpage'] at htotal'
      exact_mod_cast htotal'.symm.trans htotal
    subst hlast
    obtain ⟨orders, horders⟩ := exists_orders answers
    obtain ⟨rows, hrows, hrows', _⟩ := hpages orders
    rw [rowsOverPages_eq hruns orders pageSize (Int.le_of_eq htotal.symm)] at hrows
    rw [← funext horders, Except.ok.inj hrows]
    exact hrows'
  · rintro ⟨hruns, hsep⟩
    refine ⟨count, by omega, fun orderBy requested => ?_, fun orders => ?_⟩
    · exact ⟨_, htotal ▸ paginate_shown hruns orderBy requested pageSize⟩
    · exact ⟨_, rowsOverPages_eq hruns orders pageSize (Int.le_of_eq htotal.symm),
        hperm.mpr hsep _, pages_descending _ _ _⟩

end

/-! ## The two logs -/

/-- A log is paged through when its query raises nothing and no boundary between two pages
separates rows of one time. -/
theorem logs_pageThrough_iff (executionLogs : LogTable executionLogColumns)
    (mailLogs : LogTable mailLogColumns) (filters : LogFilters) (pageSize : Int) :
    (PagesThrough ExecutionLog.startedAt
        (executionLogs.rows.filter (executionLogStatement filters).matches)
        (fun orderBy page => listExecutionLogs executionLogs.rows filters orderBy page pageSize) ↔
      (executionLogStatement filters).Runs executionLogs.rows ∧
        ¬ Separated ExecutionLog.startedAt
          (executionLogs.rows.filter (executionLogStatement filters).matches)
          (normalizedPageSize pageSize).toNat) ∧
    (PagesThrough StoredMailLog.sentAt
        (mailLogs.rows.filter (mailLogStatement filters).matches)
        (fun orderBy page => listMailLogs mailLogs.rows filters orderBy page pageSize) ↔
      (mailLogStatement filters).Runs mailLogs.rows ∧
        ¬ Separated StoredMailLog.sentAt (mailLogs.rows.filter (mailLogStatement filters).matches)
          (normalizedPageSize pageSize).toNat) :=
  ⟨pagesThrough_iff executionLogs _ pageSize, pagesThrough_iff mailLogs _ pageSize⟩

/-- Eleven executions that started at one time. -/
def elevenLogs : LogTable executionLogColumns where
  rows := (List.range 11).map fun i => Sample.log (i + 1) 0
  primaryKey := by decide

theorem elevenLogs_pages : ¬ PagesThrough ExecutionLog.startedAt
    (elevenLogs.rows.filter (executionLogStatement {}).matches)
    (fun orderBy page => listExecutionLogs elevenLogs.rows {} orderBy page 10) := by
  intro h
  refine ((pagesThrough_iff elevenLogs _ 10).mp h).2 ?_
  exact ⟨Sample.log 1 0, by decide, 1, by decide, by decide⟩

end EarlyWarning.LogListing
