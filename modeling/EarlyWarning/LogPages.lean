/-
# `LogPages` — browsing the two logs

`logs_page` of `app/routes.py` and the links of `logs.html`.  The page shows a page of each log
under one set of filters; all that it knows of the visit before is the query string of its own
address.  So the links must carry everything: the filters, the page size and the number of the
page of the other log.

`browse` is about logs that change between two clicks, `browse_unchanged` about logs that do not.
-/
import EarlyWarning.LogListing
import EarlyWarning.Lib.OrderedDict
import EarlyWarning.Lib.PyText
import EarlyWarning.Lib.Run
import EarlyWarning.Lib.UrlQuery
import EarlyWarning.Lib.Wp
import Mathlib.Data.List.Perm.Subperm

namespace EarlyWarning.LogPages

open Lib LogExport LogListing

/-! ## A request -/

abbrev QueryParams := OrderedDict String String

/-- `QueryParams` of a query string; of the values of one name the last one counts. -/
def queryParams (query : List Char) : QueryParams :=
  .ofPairs ((UrlQuery.parseQsl query).map fun pair => (String.ofList pair.1, String.ofList pair.2))

/-- What is asked for at an address, the part behind the question mark. -/
def request (url : String) : QueryParams :=
  queryParams ((url.toList.dropWhile (· ≠ '?')).drop 1)

/-- `_log_page_parameter` -/
def logPageParameter (params : QueryParams) (name : String) (default : Int) : Int :=
  ((params.get? name).bind PyInt.int?).getD default

/-- `request.query_params.get(name, "").strip()` -/
def filterParameter (params : QueryParams) (name : String) : String :=
  PyStr.strip ((params.get? name).getD "")

def logFilters (params : QueryParams) : LogFilters where
  executionStatus := filterParameter params "execution_status"
  triggerType := filterParameter params "trigger_type"
  ruleId := filterParameter params "rule_id"
  mailStatus := filterParameter params "mail_status"
  keyword := filterParameter params "keyword"

def defaultPageSize : Int := 50

/-- The logs at the time of a request, and how the database orders what it is asked for then. -/
structure Logs where
  executionLogs : LogTable executionLogColumns
  mailLogs : LogTable mailLogColumns
  executionIds : ∀ log ∈ executionLogs.rows, log.id < 2 ^ 63
  mailIds : ∀ log ∈ mailLogs.rows, log.id < 2 ^ 63
  executionOrder : QueryOrder ExecutionLog.startedAt
  mailOrder : QueryOrder StoredMailLog.sentAt

/-- What `logs.html` is rendered with. -/
structure LogsPage where
  filters : LogFilters
  executionPage : Page ExecutionLog
  mailPage : Page StoredMailLog

def logsPage (logs : Logs) (params : QueryParams) : Except QueryError LogsPage := do
  let filters := logFilters params
  let executionPage ← listExecutionLogs logs.executionLogs.rows filters logs.executionOrder
    (logPageParameter params "execution_page" 1)
    (logPageParameter params "page_size" defaultPageSize)
  let mailPage ← listMailLogs logs.mailLogs.rows filters logs.mailOrder
    (logPageParameter params "mail_page" 1) executionPage.pageSize
  return { filters, executionPage, mailPage }

/-! ## The links -/

def urlencode (pairs : List (String × String)) : String :=
  String.ofList (UrlQuery.urlencode (pairs.map fun pair => (pair.1.toList, pair.2.toList)))

/-- What `log_page_url` encodes. -/
def LogsPage.parameters (p : LogsPage) (executionPageNumber mailPageNumber : Int) :
    List (String × String) :=
  [("execution_status", p.filters.executionStatus),
    ("trigger_type", p.filters.triggerType),
    ("rule_id", p.filters.ruleId),
    ("mail_status", p.filters.mailStatus),
    ("keyword", p.filters.keyword),
    ("execution_page", toString executionPageNumber),
    ("mail_page", toString mailPageNumber),
    ("page_size", toString p.executionPage.pageSize)]

/-- `log_page_url` -/
def LogsPage.logPageUrl (p : LogsPage) (executionPageNumber mailPageNumber : Int) : String :=
  "/logs?" ++ urlencode (p.parameters executionPageNumber mailPageNumber)

inductive Link
  | previousExecutions
  | nextExecutions
  | previousMails
  | nextMails
deriving DecidableEq

/-- The numbers of the pages of the executions and of the mails. -/
abbrev Position := Int × Int

def LogsPage.position (p : LogsPage) : Position := (p.executionPage.page, p.mailPage.page)

/-- Where a link leads to. -/
def Link.target : Link → Position → Position
  | .previousExecutions, (execution, mail) => (execution - 1, mail)
  | .nextExecutions, (execution, mail) => (execution + 1, mail)
  | .previousMails, (execution, mail) => (execution, mail - 1)
  | .nextMails, (execution, mail) => (execution, mail + 1)

/-- The condition around a link in the template. -/
def LogsPage.shows (p : LogsPage) : Link → Bool
  | .previousExecutions => p.executionPage.hasPrevious
  | .nextExecutions => p.executionPage.hasNext
  | .previousMails => p.mailPage.hasPrevious
  | .nextMails => p.mailPage.hasNext

def LogsPage.href? (p : LogsPage) (link : Link) : Option String :=
  if p.shows link then
    let target := link.target p.position
    some (p.logPageUrl target.1 target.2)
  else none

/-- A link of the page is followed, with the logs as they are then. -/
def follow (p : LogsPage) (click : Link × Logs) : Option LogsPage :=
  (p.href? click.1).bind fun url => (logsPage click.2 (request url)).toOption

/-- The page is the answer to a request. -/
def Answered (p : LogsPage) : Prop := ∃ logs params, logsPage logs params = .ok p

/-! ## What the pages are, without the addresses -/

/-- How many pages there are of the executions and of the mails. -/
def Logs.totals (logs : Logs) (filters : LogFilters) (pageSize : Int) : Position :=
  (totalPages (logs.executionLogs.rows.filter (executionLogStatement filters).matches).length
      (normalizedPageSize pageSize),
    totalPages (logs.mailLogs.rows.filter (mailLogStatement filters).matches).length
      (normalizedPageSize pageSize))

def clamp (position totals : Position) : Position :=
  (normalizedPage position.1 totals.1, normalizedPage position.2 totals.2)

def InRange (totals position : Position) : Prop :=
  (1 ≤ position.1 ∧ position.1 ≤ totals.1) ∧ 1 ≤ position.2 ∧ position.2 ≤ totals.2

instance (totals position : Position) : Decidable (InRange totals position) :=
  inferInstanceAs (Decidable (_ ∧ _))

/-- No query of the page raises. -/
def Logs.Runs (logs : Logs) (filters : LogFilters) : Prop :=
  (executionLogStatement filters).Runs logs.executionLogs.rows ∧
    (mailLogStatement filters).Runs logs.mailLogs.rows

/-- The pages of the two logs at a position. -/
def pageAt (logs : Logs) (filters : LogFilters) (pageSize : Int) (position : Position) :
    LogsPage where
  filters
  executionPage := pageOf
    (logs.executionLogs.rows.filter (executionLogStatement filters).matches)
    logs.executionOrder position.1 pageSize
  mailPage := pageOf (logs.mailLogs.rows.filter (mailLogStatement filters).matches)
    logs.mailOrder position.2 pageSize

section

variable {logs : Logs} {filters : LogFilters} {params : QueryParams} {p q : LogsPage}
  {position totals : Position} {pageSize : Int} {link : Link}

theorem normalizedPageSize_idem (pageSize : Int) :
    normalizedPageSize (normalizedPageSize pageSize) = normalizedPageSize pageSize := by
  simp only [normalizedPageSize, minPageSize, maxPageSize]
  omega

theorem pageOf_normalized {ρ : Type} {timestamp : ρ → DateTime} (matching : List ρ)
    (orderBy : QueryOrder timestamp) (page pageSize : Int) :
    pageOf matching orderBy page (normalizedPageSize pageSize) =
      pageOf matching orderBy page pageSize := by
  simp only [pageOf, normalizedPageSize_idem]

theorem paginate_eq_ok {ρ : Type} {timestamp : ρ → DateTime} {table : List ρ}
    {statement : Statement ρ} {orderBy : QueryOrder timestamp} {page : Int} {r : Page ρ} :
    paginate table statement orderBy page pageSize = .ok r ↔
      statement.Runs table ∧ pageOf (table.filter statement.matches) orderBy page pageSize = r := by
  by_cases h : statement.Runs table
  · rw [paginate_of_runs h, Except.ok.injEq, and_iff_right h]
  · obtain ⟨error, herror⟩ := paginate_of_not_runs h orderBy page pageSize
    rw [herror]
    exact ⟨nofun, fun hruns => absurd hruns.1 h⟩

/-- What a request is answered with, if it is. -/
theorem logsPage_eq_ok : logsPage logs params = .ok p ↔
    logs.Runs (logFilters params) ∧ pageAt logs (logFilters params)
      (logPageParameter params "page_size" defaultPageSize)
      (logPageParameter params "execution_page" 1, logPageParameter params "mail_page" 1) = p := by
  have hmail : pageOf (logs.mailLogs.rows.filter (mailLogStatement (logFilters params)).matches)
      logs.mailOrder (logPageParameter params "mail_page" 1)
      (normalizedPageSize (logPageParameter params "page_size" defaultPageSize)) =
      pageOf (logs.mailLogs.rows.filter (mailLogStatement (logFilters params)).matches)
        logs.mailOrder (logPageParameter params "mail_page" 1)
        (logPageParameter params "page_size" defaultPageSize) := pageOf_normalized _ _ _ _
  simp only [logsPage, bind_eq_ok, listExecutionLogs, listMailLogs, paginate_eq_ok]
  constructor
  · rintro ⟨executionPage, ⟨hexecutions, rfl⟩, mailPage, ⟨hmails, rfl⟩, hpage⟩
    refine ⟨⟨hexecutions, hmails⟩, ?_⟩
    rw [pageAt, ← hmail]
    exact Except.ok.inj hpage
  · rintro ⟨⟨hexecutions, hmails⟩, rfl⟩
    refine ⟨_, ⟨hexecutions, rfl⟩, _, ⟨hmails, rfl⟩, ?_⟩
    rw [pageAt, ← hmail]
    rfl

theorem pageAt_position (logs : Logs) (filters : LogFilters) (pageSize : Int)
    (position : Position) : (pageAt logs filters pageSize position).position =
      clamp position (logs.totals filters pageSize) := rfl

theorem pageAt_normalized (logs : Logs) (filters : LogFilters) (pageSize : Int)
    (position : Position) : pageAt logs filters (normalizedPageSize pageSize) position =
      pageAt logs filters pageSize position := by
  simp only [pageAt, pageOf_normalized]

theorem clamp_inRange (logs : Logs) (filters : LogFilters) (pageSize : Int)
    (position : Position) :
    InRange (logs.totals filters pageSize) (clamp position (logs.totals filters pageSize)) :=
  ⟨normalizedPage_bounds (one_le_totalPages _ _) _, normalizedPage_bounds (one_le_totalPages _ _) _⟩

theorem clamp_eq_self (h : InRange totals position) : clamp position totals = position :=
  Prod.ext (normalizedPage_eq_self h.1.1 h.1.2) (normalizedPage_eq_self h.2.1 h.2.2)

/-- A link is shown when there is a page where it leads to. -/
theorem shows_pageAt (logs : Logs) (filters : LogFilters) (pageSize : Int) (position : Position)
    (link : Link) : (pageAt logs filters pageSize position).shows link ↔
      InRange (logs.totals filters pageSize)
        (link.target (pageAt logs filters pageSize position).position) := by
  obtain ⟨⟨hone, hle⟩, hone', hle'⟩ := clamp_inRange logs filters pageSize position
  have hshows : (pageAt logs filters pageSize position).shows link =
      let (execution, mail) := clamp position (logs.totals filters pageSize)
      match link with
      | .previousExecutions => decide (execution > 1)
      | .nextExecutions => decide (execution < (logs.totals filters pageSize).1)
      | .previousMails => decide (mail > 1)
      | .nextMails => decide (mail < (logs.totals filters pageSize).2) := by
    cases link <;> rfl
  rw [hshows, pageAt_position]
  cases link <;> simp only [decide_eq_true_iff, InRange, Link.target] <;> omega

/-! ## The numbers are short enough to be read -/

theorem length_le_of_nodup {ids : List Nat} {n : Nat} (hnodup : ids.Nodup)
    (hids : ∀ id ∈ ids, id < n) : ids.length ≤ n := by
  have hsubset : ids ⊆ List.range n := fun id hid => List.mem_range.mpr (hids id hid)
  have hlength := (hnodup.subperm hsubset).length_le
  rwa [List.length_range] at hlength

theorem LogTable.length_le {ρ : Type} {columns : Columns ρ} (table : LogTable columns)
    (hids : ∀ row ∈ table.rows, columns.idColumn row < 2 ^ 63) : table.rows.length ≤ 2 ^ 63 := by
  rw [← List.length_map columns.idColumn]
  refine length_le_of_nodup table.primaryKey fun id hid => ?_
  obtain ⟨row, hrow, rfl⟩ := List.mem_map.mp hid
  exact hids row hrow

theorem totalPages_le {total : Nat} (htotal : total ≤ 2 ^ 63) (pageSize : Int) :
    totalPages total (normalizedPageSize pageSize) ≤ 2 ^ 63 := by
  have hbounds := normalizedPageSize_bounds pageSize
  have hdiv : ((total : Int) + normalizedPageSize pageSize - 1) / normalizedPageSize pageSize ≤
      2 ^ 63 := by
    refine Int.ediv_le_of_le_mul (by omega) ?_
    have hmul : (2 : Int) ^ 63 * 10 ≤ 2 ^ 63 * normalizedPageSize pageSize :=
      Int.mul_le_mul_of_nonneg_left hbounds.1 (by decide)
    omega
  exact Int.max_le.mpr ⟨by decide, hdiv⟩

theorem totals_le (logs : Logs) (filters : LogFilters) (pageSize : Int) :
    (logs.totals filters pageSize).1 ≤ 2 ^ 63 ∧ (logs.totals filters pageSize).2 ≤ 2 ^ 63 :=
  ⟨totalPages_le ((List.length_filter_le _ _).trans
      (LogTable.length_le logs.executionLogs logs.executionIds)) pageSize,
    totalPages_le ((List.length_filter_le _ _).trans
      (LogTable.length_le logs.mailLogs logs.mailIds)) pageSize⟩

theorem int?_of_le {n : Int} (hzero : 0 ≤ n) (hle : n ≤ 2 ^ 64) :
    PyInt.int? (toString n) = some n := by
  refine PyInt.int?_toString ?_
  have hpow : (2 : Nat) ^ 64 < 10 ^ 20 := by decide
  have hmono : (10 : Nat) ^ 20 ≤ 10 ^ PyInt.maxStrDigits :=
    Nat.pow_le_pow_right (by decide) (by decide)
  omega

/-! ## The address of a link -/

theorem get?_ofPairs {pairs : List (String × String)} (hnodup : (pairs.map Prod.fst).Nodup)
    {name value : String} (h : (name, value) ∈ pairs) :
    (OrderedDict.ofPairs pairs).get? name = some value := by
  rw [OrderedDict.get?_eq_some, OrderedDict.entries_ofPairs hnodup]
  exact h

theorem request_logPageUrl (p : LogsPage) (executionPageNumber mailPageNumber : Int) :
    request (p.logPageUrl executionPageNumber mailPageNumber) =
      .ofPairs (p.parameters executionPageNumber mailPageNumber) := by
  have hquery : ∀ query : String,
      (("/logs?" ++ query).toList.dropWhile (· ≠ '?')).drop 1 = query.toList := by
    intro query
    rw [String.toList_append]
    rfl
  rw [request, LogsPage.logPageUrl, hquery, urlencode, String.toList_ofList, queryParams,
    UrlQuery.parseQsl_urlencode, List.map_map]
  refine congrArg OrderedDict.ofPairs (List.map_id'' (fun pair => ?_) _)
  simp only [Function.comp_apply, String.ofList_toList]

/-- The filters are as `logs_page` leaves them. -/
def Stripped (filters : LogFilters) : Prop :=
  PyStr.strip filters.executionStatus = filters.executionStatus ∧
    PyStr.strip filters.triggerType = filters.triggerType ∧
    PyStr.strip filters.ruleId = filters.ruleId ∧
    PyStr.strip filters.mailStatus = filters.mailStatus ∧
    PyStr.strip filters.keyword = filters.keyword

theorem strip_strip (s : String) : PyStr.strip (PyStr.strip s) = PyStr.strip s := by
  refine PyText.ofString_injective ?_
  rw [← PyText.strip_ofString, ← PyText.strip_ofString]
  exact PyText.strip_strip _

theorem stripped_logFilters (params : QueryParams) : Stripped (logFilters params) :=
  ⟨strip_strip _, strip_strip _, strip_strip _, strip_strip _, strip_strip _⟩

theorem nodup_parameters (p : LogsPage) (e m : Int) :
    ((p.parameters e m).map Prod.fst).Nodup := by
  show ["execution_status", "trigger_type", "rule_id", "mail_status", "keyword",
    "execution_page", "mail_page", "page_size"].Nodup
  decide

theorem logFilters_parameters (hstripped : Stripped p.filters) (e m : Int) :
    logFilters (.ofPairs (p.parameters e m)) = p.filters := by
  have hparameter : ∀ name value, (name, value) ∈ p.parameters e m →
      PyStr.strip value = value →
      filterParameter (.ofPairs (p.parameters e m)) name = value := by
    intro name value hmem hvalue
    rw [filterParameter, get?_ofPairs (nodup_parameters p e m) hmem]
    exact hvalue
  obtain ⟨hstatus, htrigger, hrule, hmail, hkeyword⟩ := hstripped
  rw [logFilters, hparameter _ _ (by simp [LogsPage.parameters]) hstatus,
    hparameter _ _ (by simp [LogsPage.parameters]) htrigger,
    hparameter _ _ (by simp [LogsPage.parameters]) hrule,
    hparameter _ _ (by simp [LogsPage.parameters]) hmail,
    hparameter _ _ (by simp [LogsPage.parameters]) hkeyword]

theorem logPageParameter_parameters {e m n : Int} {name : String} {default : Int}
    (hmem : (name, toString n) ∈ p.parameters e m) (hzero : 0 ≤ n) (hle : n ≤ 2 ^ 64) :
    logPageParameter (.ofPairs (p.parameters e m)) name default = n := by
  rw [logPageParameter, get?_ofPairs (nodup_parameters p e m) hmem, Option.bind_some,
    int?_of_le hzero hle]
  rfl

/-! ## Following links -/

/-- What every page has that is an answer. -/
structure Sound (p : LogsPage) : Prop where
  stripped : Stripped p.filters
  shown : ∃ logs pageSize position, logs.Runs p.filters ∧
    p = pageAt logs p.filters pageSize position

theorem Answered.sound (h : Answered p) : Sound p := by
  obtain ⟨logs, params, hpage⟩ := h
  obtain ⟨hruns, rfl⟩ := logsPage_eq_ok.mp hpage
  exact ⟨stripped_logFilters params, logs, _, _, hruns, rfl⟩

/-- The address of a link says all that the next page depends on. -/
theorem logsPage_link (h : Sound p) (hshows : p.shows link) (logs : Logs) :
    logsPage logs (request (p.logPageUrl (link.target p.position).1 (link.target p.position).2)) =
      .ok q ↔ logs.Runs p.filters ∧
        pageAt logs p.filters p.executionPage.pageSize (link.target p.position) = q := by
  obtain ⟨hstripped, before, pageSize, position, -, hpage⟩ := h
  have hrange : InRange (before.totals p.filters pageSize) (link.target p.position) := by
    rw [hpage] at hshows ⊢
    exact (shows_pageAt _ _ _ _ _).mp hshows
  have htotals := totals_le before p.filters pageSize
  obtain ⟨⟨hone, hle⟩, hone', hle'⟩ := hrange
  have hbounds : 10 ≤ p.executionPage.pageSize ∧ p.executionPage.pageSize ≤ 200 := by
    rw [hpage]
    exact normalizedPageSize_bounds pageSize
  rw [logsPage_eq_ok, request_logPageUrl, logFilters_parameters hstripped,
    logPageParameter_parameters (n := p.executionPage.pageSize) (by simp [LogsPage.parameters])
      (by omega) (by omega),
    logPageParameter_parameters (n := (link.target p.position).1) (by simp [LogsPage.parameters])
      (by omega) (by omega),
    logPageParameter_parameters (n := (link.target p.position).2) (by simp [LogsPage.parameters])
      (by omega) (by omega)]

/-- What a click does. -/
theorem follow_eq_some (h : Sound p) (link : Link) (logs : Logs) :
    follow p (link, logs) = some q ↔ p.shows link ∧ logs.Runs p.filters ∧
      pageAt logs p.filters p.executionPage.pageSize (link.target p.position) = q := by
  have htoOption : ∀ {x : Except QueryError LogsPage}, x.toOption = some q ↔ x = .ok q := by
    intro x
    cases x with
    | error e => exact ⟨nofun, nofun⟩
    | ok p => exact ⟨fun h => congrArg _ (Option.some.inj h), fun h => congrArg _ (Except.ok.inj h)⟩
  rw [follow, LogsPage.href?]
  cases hshows : p.shows link with
  | false => simp
  | true =>
      simp only [if_true, Option.bind_some, htoOption, true_and]
      exact logsPage_link h hshows logs

theorem Sound.sizes (h : Sound p) :
    normalizedPageSize p.executionPage.pageSize = p.executionPage.pageSize ∧
      p.mailPage.pageSize = p.executionPage.pageSize := by
  obtain ⟨-, logs, pageSize, position, -, hpage⟩ := h
  rw [hpage]
  exact ⟨normalizedPageSize_idem pageSize, rfl⟩

theorem Sound.follow (h : Sound p) {click : Link × Logs} (hfollow : follow p click = some q) :
    Sound q ∧ q.filters = p.filters ∧
      q.executionPage.pageSize = p.executionPage.pageSize ∧
      q.mailPage.pageSize = p.executionPage.pageSize := by
  obtain ⟨-, hruns, rfl⟩ := (follow_eq_some h click.1 click.2).mp hfollow
  exact ⟨⟨h.stripped, _, _, _, hruns, rfl⟩, rfl, h.sizes.1, h.sizes.1⟩

/-- Where the visitor stands after the clicks, when only the numbers of the pages are kept. -/
def browsed (filters : LogFilters) (pageSize : Int) (position : Position)
    (clicks : List (Link × Logs)) : Position :=
  clicks.foldl (fun position click =>
    clamp (click.1.target position) (click.2.totals filters pageSize)) position

theorem Sound.kept (h : Sound p) {clicks : List (Link × Logs)}
    (hrun : fire LogPages.follow p clicks = some q) :
    q.filters = p.filters ∧ q.executionPage.pageSize = p.executionPage.pageSize ∧
      q.mailPage.pageSize = p.mailPage.pageSize ∧
      q.position = browsed p.filters p.executionPage.pageSize p.position clicks := by
  induction clicks generalizing p with
  | nil =>
      obtain rfl := fire_nil.mp hrun
      exact ⟨rfl, rfl, rfl, rfl⟩
  | cons click clicks ih =>
      obtain ⟨r, hfollow, hrest⟩ := fire_cons.mp hrun
      obtain ⟨hsound, hfilters, hsize, hmailSize⟩ := h.follow hfollow
      obtain ⟨hfilters', hsize', hmailSize', hposition'⟩ := ih hsound hrest
      refine ⟨hfilters'.trans hfilters, hsize'.trans hsize,
        hmailSize'.trans (hmailSize.trans h.sizes.2.symm), ?_⟩
      obtain ⟨-, -, rfl⟩ := (follow_eq_some h click.1 click.2).mp hfollow
      rw [hposition', hfilters, hsize, pageAt_position]
      rfl

/-- **Browsing changing logs.**  However the logs change between the clicks, the links of the pages
keep the filters and the page size, and a click moves the page of one log by one and the page of
the other not at all, as far as there are still that many pages. -/
theorem browse (h : Answered p) {clicks : List (Link × Logs)}
    (hrun : fire follow p clicks = some q) :
    q.filters = p.filters ∧ q.executionPage.pageSize = p.executionPage.pageSize ∧
      q.mailPage.pageSize = p.mailPage.pageSize ∧
      q.position = browsed p.filters p.executionPage.pageSize p.position clicks :=
  h.sound.kept hrun

/-- The same rows, however the database orders what it is asked for. -/
def SameLogs (logs logs' : Logs) : Prop :=
  logs'.executionLogs = logs.executionLogs ∧ logs'.mailLogs = logs.mailLogs

theorem SameLogs.totals_eq {logs' : Logs} (h : SameLogs logs logs') (filters : LogFilters)
    (pageSize : Int) : logs'.totals filters pageSize = logs.totals filters pageSize := by
  rw [Logs.totals, Logs.totals, h.1, h.2]

theorem SameLogs.runs_iff {logs' : Logs} (h : SameLogs logs logs') :
    logs'.Runs filters ↔ logs.Runs filters := by
  rw [Logs.Runs, Logs.Runs, h.1, h.2]

/-- The page shows these logs. -/
structure Rendered (logs : Logs) (p : LogsPage) : Prop where
  stripped : Stripped p.filters
  runs : logs.Runs p.filters
  shown : ∃ before position, SameLogs logs before ∧
    p = pageAt before p.filters p.executionPage.pageSize position

theorem Rendered.sound (h : Rendered logs p) : Sound p := by
  obtain ⟨before, position, hsame, hpage⟩ := h.shown
  exact ⟨h.stripped, before, _, position, hsame.runs_iff.mpr h.runs, hpage⟩

theorem Rendered.inRange (h : Rendered logs p) :
    InRange (logs.totals p.filters p.executionPage.pageSize) p.position := by
  obtain ⟨before, position, hsame, hpage⟩ := h.shown
  have hrange := clamp_inRange before p.filters p.executionPage.pageSize position
  rw [← pageAt_position, ← hpage, hsame.totals_eq] at hrange
  exact hrange

theorem Rendered.shows_iff (h : Rendered logs p) (link : Link) :
    p.shows link ↔
      InRange (logs.totals p.filters p.executionPage.pageSize) (link.target p.position) := by
  obtain ⟨before, position, hsame, hpage⟩ := h.shown
  have hshows := shows_pageAt before p.filters p.executionPage.pageSize position link
  rw [← hpage, hsame.totals_eq] at hshows
  exact hshows

/-- A click on logs that have not changed since. -/
theorem Rendered.follow (h : Rendered logs p) {click : Link × Logs}
    (hsame : SameLogs logs click.2) : follow p click = some q ↔
      InRange (logs.totals p.filters p.executionPage.pageSize) (click.1.target p.position) ∧
        pageAt click.2 p.filters p.executionPage.pageSize (click.1.target p.position) = q := by
  rw [follow_eq_some h.sound click.1 click.2, h.shows_iff, hsame.runs_iff, and_iff_right h.runs]

theorem Rendered.next (h : Rendered logs p) {click : Link × Logs}
    (hsame : SameLogs logs click.2) (hfollow : LogPages.follow p click = some q) :
    Rendered logs q ∧ q.filters = p.filters ∧
      q.executionPage.pageSize = p.executionPage.pageSize ∧
      q.position = click.1.target p.position := by
  obtain ⟨hsound, hfilters, hsize, -⟩ := h.sound.follow hfollow
  obtain ⟨hrange, hpage⟩ := (h.follow hsame).mp hfollow
  refine ⟨⟨hsound.stripped, ?_, click.2, click.1.target p.position, hsame, ?_⟩, hfilters, hsize, ?_⟩
  · rw [hfilters]
    exact h.runs
  · rw [hfilters, hsize]
    exact hpage.symm
  · rw [← hpage, pageAt_position, hsame.totals_eq, clamp_eq_self hrange]

theorem Rendered.reached (h : Rendered logs p) {clicks : List (Link × Logs)}
    (hsame : ∀ click ∈ clicks, SameLogs logs click.2) :
    ((fire LogPages.follow p clicks).isSome ↔ ∀ links, links <+: clicks.map Prod.fst →
      InRange (logs.totals p.filters p.executionPage.pageSize)
        (links.foldl (fun position link => link.target position) p.position)) ∧
    ∀ q, fire LogPages.follow p clicks = some q →
      q.position = clicks.foldl (fun position click => click.1.target position) p.position ∧
      ∀ last ∈ clicks.getLast?,
        q = pageAt last.2 p.filters p.executionPage.pageSize q.position := by
  induction clicks generalizing p with
  | nil =>
      refine ⟨⟨fun _ links hlinks => ?_, fun _ => rfl⟩, fun q hq => ?_⟩
      · rw [List.prefix_nil.mp hlinks]
        exact h.inRange
      · rw [fire_nil.mp hq]
        exact ⟨rfl, fun last hlast => by cases hlast⟩
  | cons click clicks ih =>
      have hclick := hsame click List.mem_cons_self
      have hrest := fun click h => hsame click (List.mem_cons_of_mem _ h)
      have hprefixes : (∀ links, links <+: (click :: clicks).map Prod.fst →
          InRange (logs.totals p.filters p.executionPage.pageSize)
            (links.foldl (fun position link => link.target position) p.position)) ↔
          ∀ links, links <+: clicks.map Prod.fst →
            InRange (logs.totals p.filters p.executionPage.pageSize)
              (links.foldl (fun position link => link.target position)
                (click.1.target p.position)) := by
        constructor
        · intro hall links hlinks
          exact hall (click.1 :: links) (List.cons_prefix_cons.mpr ⟨rfl, hlinks⟩)
        · intro hall links hlinks
          rcases List.prefix_cons_iff.mp hlinks with rfl | ⟨more, rfl, hmore⟩
          · exact h.inRange
          · exact hall more hmore
      rw [hprefixes]
      cases hfollow : LogPages.follow p click with
      | none =>
          have hnot : ¬ InRange (logs.totals p.filters p.executionPage.pageSize)
              (click.1.target p.position) := by
            intro hrange
            have hsome := (h.follow hclick).mpr ⟨hrange, rfl⟩
            rw [hfollow] at hsome
            cases hsome
          have hfire : fire LogPages.follow p (click :: clicks) = none := by
            rw [fire, hfollow]
            rfl
          rw [hfire]
          refine ⟨⟨fun hsome => ?_, fun hall => absurd (hall [] List.nil_prefix) hnot⟩,
            fun q hq => ?_⟩
          · cases hsome
          · cases hq
      | some r =>
          have hfire : fire LogPages.follow p (click :: clicks) =
              fire LogPages.follow r clicks := by
            rw [fire, hfollow]
            rfl
          obtain ⟨hrendered, hfilters, hsize, hposition⟩ := h.next hclick hfollow
          obtain ⟨hsome, hreached⟩ := ih hrendered hrest
          rw [hfilters, hsize, hposition] at hsome
          rw [hfire]
          refine ⟨hsome, fun q hq => ?_⟩
          obtain ⟨hend, hlast⟩ := hreached q hq
          rw [hposition] at hend
          refine ⟨hend, fun last hmem => ?_⟩
          rw [hfilters, hsize] at hlast
          cases clicks with
          | nil =>
              obtain rfl := Option.some.inj hmem
              obtain rfl := fire_nil.mp hq
              obtain ⟨-, hpage⟩ := (h.follow hclick).mp hfollow
              rw [hposition]
              exact hpage.symm
          | cons next clicks => exact hlast last hmem

/-- **Browsing logs that stay as they are.**  Links can be followed one after the other just when
each of them leads to a page that there is, and then they lead there: a click on a log moves its
page by one, and what is shown is the pages of the lists at these numbers. -/
theorem browse_unchanged (h : logsPage logs params = .ok p) {clicks : List (Link × Logs)}
    (hsame : ∀ click ∈ clicks, SameLogs logs click.2) :
    ((fire follow p clicks).isSome ↔ ∀ links, links <+: clicks.map Prod.fst →
      InRange (logs.totals p.filters p.executionPage.pageSize)
        (links.foldl (fun position link => link.target position) p.position)) ∧
    ∀ q, fire follow p clicks = some q →
      q.position = clicks.foldl (fun position click => click.1.target position) p.position ∧
      ∀ last ∈ clicks.getLast?,
        q = pageAt last.2 p.filters p.executionPage.pageSize q.position := by
  obtain ⟨hruns, hpage⟩ := logsPage_eq_ok.mp h
  have hfilters : p.filters = logFilters params := by
    rw [← hpage]
    rfl
  have hsize : p.executionPage.pageSize =
      normalizedPageSize (logPageParameter params "page_size" defaultPageSize) := by
    rw [← hpage]
    rfl
  have hshown : p = pageAt logs p.filters p.executionPage.pageSize
      (logPageParameter params "execution_page" 1, logPageParameter params "mail_page" 1) := by
    rw [hfilters, hsize, pageAt_normalized]
    exact hpage.symm
  have hrendered : Rendered logs p :=
    ⟨hfilters ▸ stripped_logFilters params, hfilters ▸ hruns, logs, _, ⟨rfl, rfl⟩, hshown⟩
  exact hrendered.reached hsame

end

/-! ## Eleven executions on pages of ten -/

namespace Sample

def logs : Logs where
  executionLogs := elevenLogs
  mailLogs := ⟨[], List.nodup_nil⟩
  executionIds := by decide
  mailIds := nofun
  executionOrder := Answer.sorted ExecutionLog.startedAt
  mailOrder := Answer.sorted _

/-- The executions have been deleted. -/
def emptied : Logs :=
  { logs with executionLogs := ⟨[], List.nodup_nil⟩, executionIds := fun _ h => by cases h }

def params : QueryParams := .ofPairs [("page_size", "1"), ("keyword", " ")]

def page : LogsPage :=
  pageAt logs (logFilters params) (logPageParameter params "page_size" defaultPageSize)
    (logPageParameter params "execution_page" 1, logPageParameter params "mail_page" 1)

theorem runs (table : List ExecutionLog) (mails : List StoredMailLog) :
    (executionLogStatement (logFilters params)).Runs table ∧
      (mailLogStatement (logFilters params)).Runs mails := by
  have hexecutions : executionLogStatement (logFilters params) = [] := by decide
  have hmails : mailLogStatement (logFilters params) = [] := by decide
  rw [hexecutions, hmails]
  exact ⟨⟨nofun, fun _ _ => rfl⟩, nofun, fun _ _ => rfl⟩

theorem logsPage_page : logsPage logs params = .ok page :=
  logsPage_eq_ok.mpr ⟨runs _ _, rfl⟩

end Sample

/-- The visitor asks for the second page, and there is only one left. -/
theorem browse_emptied : ∃ q, fire follow Sample.page [(.nextExecutions, Sample.emptied)] = some q ∧
    q.filters = Sample.page.filters ∧ q.position = (1, 1) := by
  have hanswered : Answered Sample.page := ⟨_, _, Sample.logsPage_page⟩
  obtain ⟨q, hfollow⟩ : ∃ q, follow Sample.page (.nextExecutions, Sample.emptied) = some q :=
    ⟨_, (follow_eq_some hanswered.sound .nextExecutions Sample.emptied).mpr
      ⟨by decide +kernel, Sample.runs _ _, rfl⟩⟩
  have hrun := fire_cons.mpr ⟨q, hfollow, fire_nil.mpr rfl⟩
  obtain ⟨hfilters, -, -, hposition⟩ := browse hanswered hrun
  have hend : browsed Sample.page.filters Sample.page.executionPage.pageSize Sample.page.position
      [(.nextExecutions, Sample.emptied)] = (1, 1) := by decide +kernel
  exact ⟨q, hrun, hfilters, hposition.trans hend⟩

theorem browse_unchanged_second :
    (fire follow Sample.page [(.nextExecutions, Sample.logs)]).isSome := by
  refine (browse_unchanged Sample.logsPage_page fun click hclick => ?_).1.mpr fun links hlinks => ?_
  · rw [List.mem_singleton.mp hclick]
    exact ⟨rfl, rfl⟩
  · rcases List.prefix_cons_iff.mp hlinks with rfl | ⟨more, rfl, hmore⟩
    · decide +kernel
    · rw [List.prefix_nil.mp hmore]
      decide +kernel

end EarlyWarning.LogPages
