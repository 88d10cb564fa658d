/-
# `LogFilter` — which rows the filters of the log pages select

A row satisfies a filter when it has the status, the trigger or the rule that the filter names;
a filter that names no status or trigger is ignored, and a rule id that is no number is the id of
no rule.  A keyword is satisfied by a field in which it stands.

`contains` writes the keyword into a pattern of LIKE as it is.  So the statements select the rows
that satisfy the filters in every log only when nothing in the keyword is a wildcard
(`executionLogs_exact_iff`, `mailLogs_exact_iff`).
-/
import EarlyWarning.LogListing

namespace EarlyWarning.LogListing

open Lib LogExport

/-! ## What the filters ask for -/

/-- The filter is the value of this status or trigger, or of none. -/
def SatisfiesEnum {ε : Type} (values : List ε) (value : ε → String) (filter : String) (e : ε) :
    Prop :=
  ∀ e' ∈ values, value e' = filter → e = e'

def SatisfiesRuleId (ruleId : String) (log : ExecutionLog) : Prop :=
  ruleId ≠ "" → PyInt.int? ruleId = some (log.ruleId : Int)

/-- The keyword stands in one of the fields. -/
def SatisfiesKeyword (fields : List String) (keyword : String) : Prop :=
  keyword ≠ "" → ∃ field ∈ fields, Like.OccursIn keyword field

def ExecutionLog.searched (log : ExecutionLog) : List String := [log.errorType, log.errorMessage]

def StoredMailLog.searched (log : StoredMailLog) : List String :=
  [log.recipients, log.ccRecipients, log.subject, log.errorMessage]

structure SatisfiesExecution (filters : LogFilters) (log : ExecutionLog) : Prop where
  status : SatisfiesEnum executionStatuses executionStatusValue filters.executionStatus log.status
  trigger : SatisfiesEnum triggerTypes triggerTypeValue filters.triggerType log.triggerType
  rule : SatisfiesRuleId filters.ruleId log
  keyword : SatisfiesKeyword (ExecutionLog.searched log) filters.keyword

structure SatisfiesMail (filters : LogFilters) (log : StoredMailLog) : Prop where
  status : SatisfiesEnum mailStatuses mailStatusValue filters.mailStatus log.status
  keyword : SatisfiesKeyword (StoredMailLog.searched log) filters.keyword

/-- A listing whose queries return the rows in one order shows those that satisfy the filters,
each of them once, and counts them. -/
structure Exact {ρ : Type} (Satisfies : ρ → Prop) (table : List ρ)
    (query : Int → Except QueryError (Page ρ)) (totalPages : Nat) (rows : List ρ) : Prop where
  shown : rowsOverPages query totalPages = .ok rows
  once : rows.Nodup
  satisfying : ∀ row, row ∈ rows ↔ row ∈ table ∧ Satisfies row
  counted : ∀ requested, ∃ page, query requested = .ok page ∧ page.totalPages = totalPages ∧
    page.total = rows.length

/-- No searched field has a NUL, at which LIKE stops reading. -/
def NulFree {ρ : Type} (searched : ρ → List String) (table : List ρ) : Prop :=
  ∀ row ∈ table, ∀ field ∈ searched row, '\x00' ∉ field.toList

/-- It is exact in every log, whatever the order. -/
def AlwaysExact {ρ : Type} (columns : Columns ρ) {timestamp : ρ → DateTime}
    (searched : ρ → List String) (Satisfies : ρ → Prop)
    (list : List ρ → QueryOrder timestamp → Int → Except QueryError (Page ρ)) : Prop :=
  ∀ log : LogTable columns, NulFree searched log.rows → ∀ orderBy,
    ∃ totalPages rows, Exact Satisfies log.rows (list log.rows orderBy) totalPages rows

/-- The pattern of the keyword means the keyword, and is not too long. -/
def Searchable (keyword : String) : Prop :=
  Like.Plain keyword ∧ patternTooLong keyword = false

/-- A rule id is given, and is the id of no rule. -/
def NoSuchRule (ruleId : String) : Prop :=
  ruleId ≠ "" ∧ ∀ id : Nat, PyInt.int? ruleId ≠ some (id : Int)

section

variable {ρ : Type} {columns : Columns ρ} {timestamp : ρ → DateTime} {statement : Statement ρ}
  {conditions : Statement ρ} {fields : List (ρ → String)} {searched : ρ → List String}
  {Satisfies : ρ → Prop} {keyword : String} {row : ρ} {table : List ρ}

/-! ## A statement that selects what is asked for -/

theorem exact_iff (log : LogTable columns) (orderBy : QueryOrder timestamp) (pageSize : Int) :
    (∃ totalPages rows, Exact Satisfies log.rows
        (fun page => paginate log.rows statement orderBy page pageSize) totalPages rows) ↔
      statement.Runs log.rows ∧ ∀ row ∈ log.rows, statement.matches row ↔ Satisfies row := by
  obtain ⟨count, htotal, _, hcount⟩ :=
    totalPages_eq_natCast (log.rows.filter statement.matches).length pageSize
  let answer := orderBy (log.rows.filter statement.matches)
  have hrows : statement.Runs log.rows →
      rowsOverPages (fun page => paginate log.rows statement orderBy page pageSize) count =
        .ok answer.ordered := by
    intro hruns
    rw [rowsOverPages_eq hruns (fun _ => orderBy) pageSize (Int.le_of_eq htotal.symm), pages_const]
    exact congrArg Except.ok (List.take_of_length_le (answer.length_eq ▸ hcount))
  have hmem : ∀ row, row ∈ answer.ordered ↔ row ∈ log.rows ∧ statement.matches row := by
    intro row
    rw [answer.perm.mem_iff, List.mem_filter]
  constructor
  · rintro ⟨last, rows, hexact⟩
    obtain ⟨page, hpage, hlast, _⟩ := hexact.counted 1
    have hruns : statement.Runs log.rows := by
      by_contra hruns
      obtain ⟨error, herror⟩ := paginate_of_not_runs hruns orderBy 1 pageSize
      exact absurd (herror.symm.trans hpage) (by simp)
    refine ⟨hruns, fun row hrow => ?_⟩
    have hpage' := (paginate_of_runs hruns orderBy 1 pageSize).symm.trans hpage
    rw [← Except.ok.inj hpage'] at hlast
    have hcount' : last = count := by exact_mod_cast hlast.symm.trans htotal
    subst hcount'
    have hshown := hexact.shown
    rw [hrows hruns] at hshown
    have hsat := hexact.satisfying row
    rw [← Except.ok.inj hshown, hmem row] at hsat
    simpa [hrow] using hsat
  · rintro ⟨hruns, hmatches⟩
    refine ⟨count, answer.ordered, hrows hruns, ?_, fun row => ?_, fun requested => ?_⟩
    · exact answer.perm.nodup_iff.mpr ((List.Nodup.of_map _ log.primaryKey).filter _)
    · rw [hmem row]
      exact and_congr_right (hmatches row)
    · exact ⟨_, paginate_of_runs hruns orderBy requested pageSize, htotal, answer.length_eq.symm⟩

/-! ## The conditions -/

theorem matches_append (a b : Statement ρ) (row : ρ) :
    Statement.matches (a ++ b) row = (a.matches row && b.matches row) := by
  simp [Statement.matches]

theorem raisesOn_append (a b : Statement ρ) (row : ρ) :
    raisesOn row (a ++ b) = (raisesOn row a || (a.matches row && raisesOn row b)) := by
  induction a with
  | nil => simp [raisesOn, Statement.matches]
  | cons condition a ih =>
      cases condition with
      | columnEquals test =>
          simp only [List.cons_append, raisesOn, ih, Statement.matches, List.all_cons]
          grind
      | integerEquals column parameter =>
          simp only [List.cons_append, raisesOn, ih, Statement.matches, List.all_cons]
          grind
      | anyContains columns keyword =>
          simp only [List.cons_append, raisesOn, ih, Statement.matches, List.all_cons]
          grind

theorem matches_whereEnum {ε : Type} {values : List ε} {value : ε → String} {column : ρ → ε}
    {filter : String} (hall : ∀ e, e ∈ values) (hvalue : ∀ e e', value e = value e' → e = e') :
    (whereEnum values value column filter).matches row ↔
      SatisfiesEnum values value filter (column row) := by
  simp only [whereEnum, SatisfiesEnum]
  split
  case isTrue h =>
    obtain ⟨e, _, rfl⟩ := List.mem_map.mp h
    simp only [Statement.matches, List.all_cons, List.all_nil, Bool.and_true, Condition.matches,
      decide_eq_true_eq]
    constructor
    · intro heq e' _ heq'
      exact hvalue _ _ (heq.trans heq'.symm)
    · intro hsat
      exact congrArg value (hsat e (hall e) rfl)
  case isFalse h =>
    refine ⟨fun _ e' he' heq => absurd (List.mem_map.mpr ⟨e', he', heq⟩) h, fun _ => rfl⟩

theorem raisesOn_whereEnum {ε : Type} {values : List ε} {value : ε → String} {column : ρ → ε}
    {filter : String} : raisesOn row (whereEnum values value column filter) = false := by
  simp only [whereEnum]
  split <;> simp [raisesOn]

theorem binds_whereEnum {ε : Type} {values : List ε} {value : ε → String} {column : ρ → ε}
    {filter : String} : ∀ condition ∈ whereEnum values value column filter, condition.Binds := by
  intro condition hmem
  simp only [whereEnum] at hmem
  split at hmem
  case isTrue =>
    rw [List.mem_singleton.mp hmem]
    trivial
  case isFalse => cases hmem

theorem raisesOn_whereKeyword : raisesOn row (whereKeyword fields keyword) =
    (keyword ≠ "" && fields ≠ [] && patternTooLong keyword) := by
  simp only [whereKeyword]
  split
  case isTrue h => simp [raisesOn, h]
  case isFalse h => simp [raisesOn, h]

theorem matches_whereKeyword (hplain : Like.Plain keyword)
    (hfree : ∀ column ∈ fields, '\x00' ∉ (column row).toList) :
    (whereKeyword fields keyword).matches row ↔
      SatisfiesKeyword (fields.map fun column => column row) keyword := by
  simp only [whereKeyword, SatisfiesKeyword]
  split
  case isTrue h =>
    simp only [Statement.matches, List.all_cons, List.all_nil, Bool.and_true, Condition.matches,
      List.any_eq_true]
    constructor
    · rintro ⟨column, hcolumn, hlike⟩ _
      exact ⟨_, List.mem_map_of_mem hcolumn,
        (Like.containsPattern_iff hplain (hfree column hcolumn)).mp hlike⟩
    · intro hsat
      obtain ⟨_, hfield, hoccurs⟩ := hsat h
      obtain ⟨column, hcolumn, rfl⟩ := List.mem_map.mp hfield
      exact ⟨column, hcolumn,
        (Like.containsPattern_iff hplain (hfree column hcolumn)).mpr hoccurs⟩
  case isFalse h => exact ⟨fun _ hne => absurd hne h, fun _ => rfl⟩

/-- Fields that are a misread keyword are found, and the keyword is not in them. -/
theorem matches_misread (hplain : ¬ Like.Plain keyword) (hfields : fields ≠ [])
    (hmisread : ∀ column ∈ fields, column row = Like.misread keyword) :
    (whereKeyword fields keyword).matches row ∧
      ¬ SatisfiesKeyword (fields.map fun column => column row) keyword := by
  have hne : keyword ≠ "" := by
    rintro rfl
    exact hplain (by decide)
  constructor
  · obtain ⟨column, hcolumn⟩ := List.exists_mem_of_ne_nil fields hfields
    simp only [whereKeyword, if_pos hne, Statement.matches, List.all_cons, List.all_nil,
      Bool.and_true, Condition.matches, List.any_eq_true]
    exact ⟨column, hcolumn, hmisread column hcolumn ▸ Like.like_misread keyword⟩
  · intro hsat
    obtain ⟨_, hfield, hoccurs⟩ := hsat hne
    obtain ⟨column, hcolumn, rfl⟩ := List.mem_map.mp hfield
    rw [hmisread column hcolumn] at hoccurs
    exact Like.not_occursIn_misread hplain hoccurs

/-! ## In every log -/

theorem nulFree_misread (hsearched : searched row = fields.map fun column => column row)
    (hmisread : ∀ column ∈ fields, column row = Like.misread keyword) :
    NulFree searched [row] := by
  intro row' hrow' field hfield
  rw [List.mem_singleton.mp hrow', hsearched] at hfield
  obtain ⟨column, hcolumn, rfl⟩ := List.mem_map.mp hfield
  rw [hmisread column hcolumn]
  exact Like.nul_notMem_misread keyword

/-- A keyword after conditions that raise nothing. -/
theorem alwaysExact_iff {Selects : ρ → Prop} (pageSize : Int) (hfields : fields ≠ [])
    (hsearched : ∀ row, searched row = fields.map fun column => column row)
    (hsatisfies : ∀ row, Satisfies row ↔ Selects row ∧ SatisfiesKeyword (searched row) keyword)
    (hmatches : ∀ row, conditions.matches row ↔ Selects row)
    (hnever : ∀ row, raisesOn row conditions = false)
    (hrow : ∀ text, (∃ row, Selects row) → ∃ row, Selects row ∧ ∀ column ∈ fields,
      column row = text) :
    AlwaysExact columns searched Satisfies
        (fun table (orderBy : QueryOrder timestamp) page =>
          paginate table (conditions ++ whereKeyword fields keyword) orderBy page pageSize) ↔
      (∀ condition ∈ conditions, condition.Binds) ∧
        ((∃ row, Selects row) → Searchable keyword) := by
  constructor
  · intro h
    have hempty := (exact_iff ⟨[], List.nodup_nil⟩ (Answer.sorted timestamp) pageSize).mp
      (h ⟨[], List.nodup_nil⟩ (fun _ hrow => absurd hrow List.not_mem_nil) _)
    refine ⟨fun condition hmem => hempty.1.1 condition (List.mem_append_left _ hmem), ?_⟩
    intro hsome
    -- one row, in which the keyword is misread
    obtain ⟨row, hselects, hmisread⟩ := hrow (Like.misread keyword) hsome
    have hone := (exact_iff ⟨[row], List.nodup_singleton _⟩ (Answer.sorted timestamp) pageSize).mp
      (h ⟨[row], List.nodup_singleton _⟩ (nulFree_misread (hsearched row) hmisread) _)
    by_cases hplain : Like.Plain keyword
    · refine ⟨hplain, ?_⟩
      have hraises := hone.1.2 row (List.mem_singleton_self _)
      rw [raisesOn_append, hnever, (hmatches row).mpr hselects, raisesOn_whereKeyword] at hraises
      by_cases hempty : keyword = ""
      · rw [hempty]
        decide
      · simpa [hempty, hfields] using hraises
    · obtain ⟨hfound, hnot⟩ := matches_misread hplain hfields hmisread
      have hsat := (hone.2 row (List.mem_singleton_self _)).mp (by
        rw [matches_append, (hmatches row).mpr hselects, hfound]
        rfl)
      exact absurd (hsearched row ▸ ((hsatisfies row).mp hsat).2) hnot
  · rintro ⟨hbinds, hsearchable⟩ log hfree orderBy
    refine (exact_iff log orderBy pageSize).mpr ⟨⟨?_, fun row hrow => ?_⟩, fun row hrow => ?_⟩
    · intro condition hcondition
      rcases List.mem_append.mp hcondition with hmem | hmem
      · exact hbinds condition hmem
      · simp only [whereKeyword] at hmem
        split at hmem
        case isTrue =>
          rw [List.mem_singleton.mp hmem]
          trivial
        case isFalse => cases hmem
    · rw [raisesOn_append, hnever, Bool.false_or, raisesOn_whereKeyword]
      cases hsel : conditions.matches row with
      | false => rfl
      | true =>
          rw [(hsearchable ⟨row, (hmatches row).mp hsel⟩).2]
          simp
    · rw [matches_append, hsatisfies, Bool.and_eq_true, hmatches, hsearched]
      refine and_congr_right fun hsel => ?_
      refine matches_whereKeyword (hsearchable ⟨row, hsel⟩).1 fun column hcolumn => ?_
      exact hfree row hrow _ (hsearched row ▸ List.mem_map_of_mem hcolumn)

end

/-! ## The two logs -/

theorem matches_whereRuleId (ruleId : String) (log : ExecutionLog) :
    (whereRuleId ruleId).matches log ↔ SatisfiesRuleId ruleId log := by
  simp only [whereRuleId, SatisfiesRuleId]
  split
  case isTrue h =>
    simp only [Statement.matches, List.all_cons, List.all_nil, Bool.and_true, Condition.matches,
      decide_eq_true_eq, ruleIdParameter]
    cases hint : PyInt.int? ruleId with
    | none => simp [h]
    | some n => simp [h, eq_comm]
  case isFalse h => exact ⟨fun _ hne => absurd hne h, fun _ => rfl⟩

theorem raisesOn_whereRuleId (ruleId : String) (log : ExecutionLog) :
    raisesOn log (whereRuleId ruleId) = false := by
  simp only [whereRuleId]
  split <;> simp [raisesOn]

theorem binds_whereRuleId (ruleId : String) :
    (∀ condition ∈ whereRuleId ruleId, condition.Binds) ↔ IsInt64 (ruleIdParameter ruleId) := by
  simp only [whereRuleId]
  split
  case isTrue h => simp [Condition.Binds]
  case isFalse h =>
    rw [Decidable.not_not.mp h]
    exact ⟨fun _ => by decide, fun _ condition hmem => by cases hmem⟩

theorem noSuchRule_iff (ruleId : String) :
    NoSuchRule ruleId ↔ ¬ ∃ log, SatisfiesRuleId ruleId log := by
  constructor
  · rintro ⟨hne, hnone⟩ ⟨log, hlog⟩
    exact hnone log.ruleId (hlog hne)
  · intro h
    refine ⟨?_, fun id hid => h ⟨{ Sample.log 1 0 with ruleId := id }, fun _ => hid⟩⟩
    rintro rfl
    exact h ⟨Sample.log 1 0, fun hne => absurd rfl hne⟩

/-- There is a value that a filter of an enumeration does not exclude. -/
theorem exists_satisfiesEnum {ε : Type} (values : List ε) {value : ε → String}
    (hvalue : ∀ e e', value e = value e' → e = e') (e : ε) (filter : String) :
    ∃ e, SatisfiesEnum values value filter e := by
  by_cases h : ∃ e' ∈ values, value e' = filter
  · obtain ⟨e', _, rfl⟩ := h
    exact ⟨e', fun e'' _ heq => hvalue _ _ heq.symm⟩
  · exact ⟨e, fun e' he' heq => absurd ⟨e', he', heq⟩ h⟩

theorem mem_executionStatuses (e : ExecutionStatus) : e ∈ executionStatuses := by
  cases e <;> decide

theorem mem_triggerTypes (e : TriggerType) : e ∈ triggerTypes := by cases e <;> decide

theorem mem_mailStatuses (e : MailStatus) : e ∈ mailStatuses := by cases e <;> decide

theorem executionStatusValue_injective (a b : ExecutionStatus)
    (h : executionStatusValue a = executionStatusValue b) : a = b := by
  cases a <;> cases b <;> first | rfl | exact absurd h (by decide)

theorem triggerTypeValue_injective (a b : TriggerType)
    (h : triggerTypeValue a = triggerTypeValue b) : a = b := by
  cases a <;> cases b <;> first | rfl | exact absurd h (by decide)

theorem mailStatusValue_injective (a b : MailStatus)
    (h : mailStatusValue a = mailStatusValue b) : a = b := by
  cases a <;> cases b <;> first | rfl | exact absurd h (by decide)

/-- The conditions of `list_execution_logs` before the keyword. -/
def executionConditions (filters : LogFilters) : Statement ExecutionLog :=
  whereEnum executionStatuses executionStatusValue ExecutionLog.status filters.executionStatus ++
    whereEnum triggerTypes triggerTypeValue ExecutionLog.triggerType filters.triggerType ++
    whereRuleId filters.ruleId

structure SelectsExecution (filters : LogFilters) (log : ExecutionLog) : Prop where
  status : SatisfiesEnum executionStatuses executionStatusValue filters.executionStatus log.status
  trigger : SatisfiesEnum triggerTypes triggerTypeValue filters.triggerType log.triggerType
  rule : SatisfiesRuleId filters.ruleId log

theorem exists_selectsExecution (filters : LogFilters) :
    (∃ log, SelectsExecution filters log) ↔ ¬ NoSuchRule filters.ruleId := by
  rw [noSuchRule_iff, not_not]
  constructor
  · rintro ⟨log, hlog⟩
    exact ⟨log, hlog.rule⟩
  · rintro ⟨log, hrule⟩
    obtain ⟨status, hstatus⟩ := exists_satisfiesEnum executionStatuses
      executionStatusValue_injective .success filters.executionStatus
    obtain ⟨trigger, htrigger⟩ := exists_satisfiesEnum triggerTypes triggerTypeValue_injective
      .manual filters.triggerType
    exact ⟨{ log with status := status, triggerType := trigger }, hstatus, htrigger, hrule⟩

theorem matches_execution (filters : LogFilters) (log : ExecutionLog) :
    (executionConditions filters).matches log ↔ SelectsExecution filters log := by
  rw [executionConditions, matches_append, matches_append, Bool.and_eq_true, Bool.and_eq_true,
    matches_whereEnum mem_executionStatuses executionStatusValue_injective,
    matches_whereEnum mem_triggerTypes triggerTypeValue_injective, matches_whereRuleId]
  exact ⟨fun h => ⟨h.1.1, h.1.2, h.2⟩, fun h => ⟨⟨h.status, h.trigger⟩, h.rule⟩⟩

theorem raisesOn_execution (filters : LogFilters) (log : ExecutionLog) :
    raisesOn log (executionConditions filters) = false := by
  simp [executionConditions, raisesOn_append, raisesOn_whereEnum, raisesOn_whereRuleId]

theorem binds_execution (filters : LogFilters) :
    (∀ condition ∈ executionConditions filters, condition.Binds) ↔
      IsInt64 (ruleIdParameter filters.ruleId) := by
  rw [← binds_whereRuleId]
  constructor
  · intro h condition hmem
    exact h condition (List.mem_append_right _ hmem)
  · intro h condition hmem
    rcases List.mem_append.mp hmem with hmem | hmem
    · rcases List.mem_append.mp hmem with hmem | hmem
      · exact binds_whereEnum condition hmem
      · exact binds_whereEnum condition hmem
    · exact h condition hmem

/-- The list of the executions is exact in every log when the rule id has room in SQLite, and
the keyword is searchable unless no row has the rule id anyway. -/
theorem executionLogs_exact_iff (filters : LogFilters) (pageSize : Int) :
    AlwaysExact executionLogColumns ExecutionLog.searched (SatisfiesExecution filters)
        (fun table orderBy page => listExecutionLogs table filters orderBy page pageSize) ↔
      IsInt64 (ruleIdParameter filters.ruleId) ∧
        (NoSuchRule filters.ruleId ∨ Searchable filters.keyword) := by
  have hiff : AlwaysExact executionLogColumns ExecutionLog.searched (SatisfiesExecution filters)
        (fun table orderBy page => listExecutionLogs table filters orderBy page pageSize) ↔
      (∀ condition ∈ executionConditions filters, condition.Binds) ∧
        ((∃ log, SelectsExecution filters log) → Searchable filters.keyword) := by
    refine alwaysExact_iff pageSize (List.cons_ne_nil _ _) (fun _ => rfl) (fun log => ?_)
      (matches_execution filters) (raisesOn_execution filters) (fun text => ?_)
    · exact ⟨fun h => ⟨⟨h.status, h.trigger, h.rule⟩, h.keyword⟩,
        fun h => ⟨h.1.status, h.1.trigger, h.1.rule, h.2⟩⟩
    · rintro ⟨log, hlog⟩
      refine ⟨{ log with errorType := text, errorMessage := text },
        ⟨hlog.status, hlog.trigger, hlog.rule⟩, ?_⟩
      simp
  rw [hiff, binds_execution, exists_selectsExecution, ← or_iff_not_imp_left]

def sampleMail : StoredMailLog where
  id := 1
  executionLogId := 1
  recipients := "ops@example.com"
  ccRecipients := ""
  subject := "stock"
  status := .success
  errorMessage := ""
  sentAt := 0

def sampleMails : LogTable mailLogColumns := ⟨[sampleMail], List.nodup_singleton _⟩

/-- The list of the mails is exact in every log when the keyword is searchable. -/
theorem mailLogs_exact_iff (filters : LogFilters) (pageSize : Int) :
    AlwaysExact mailLogColumns StoredMailLog.searched (SatisfiesMail filters)
        (fun table orderBy page => listMailLogs table filters orderBy page pageSize) ↔
      Searchable filters.keyword := by
  have hiff : AlwaysExact mailLogColumns StoredMailLog.searched (SatisfiesMail filters)
        (fun table orderBy page => listMailLogs table filters orderBy page pageSize) ↔
      (∀ condition ∈ whereEnum mailStatuses mailStatusValue (fun log : StoredMailLog => log.status)
        filters.mailStatus, condition.Binds) ∧
        ((∃ log : StoredMailLog, SatisfiesEnum mailStatuses mailStatusValue filters.mailStatus
          log.status) → Searchable filters.keyword) := by
    refine alwaysExact_iff pageSize (List.cons_ne_nil _ _) (fun _ => rfl) (fun log => ?_)
      (fun log => matches_whereEnum mem_mailStatuses mailStatusValue_injective)
      (fun log => raisesOn_whereEnum) (fun text => ?_)
    · exact ⟨fun h => ⟨h.status, h.keyword⟩, fun h => ⟨h.1, h.2⟩⟩
    · rintro ⟨log, hlog⟩
      let found : StoredMailLog :=
        { log with recipients := text, ccRecipients := text, subject := text, errorMessage := text }
      refine ⟨found, hlog, ?_⟩
      simp [found]
  obtain ⟨status, hstatus⟩ := exists_satisfiesEnum mailStatuses mailStatusValue_injective .success
    filters.mailStatus
  have hsome : ∃ log : StoredMailLog, SatisfiesEnum mailStatuses mailStatusValue
      filters.mailStatus log.status := ⟨{ sampleMail with status := status }, hstatus⟩
  rw [hiff]
  exact ⟨fun h => h.2 hsome, fun h => ⟨binds_whereEnum, fun _ => h⟩⟩

/-- The lists of both logs are exact, in every log and in every order, for exactly these
filters. -/
theorem logs_exact_iff (filters : LogFilters) (pageSize : Int) :
    (AlwaysExact executionLogColumns ExecutionLog.searched (SatisfiesExecution filters)
        (fun table orderBy page => listExecutionLogs table filters orderBy page pageSize) ↔
      IsInt64 (ruleIdParameter filters.ruleId) ∧
        (NoSuchRule filters.ruleId ∨ Searchable filters.keyword)) ∧
    (AlwaysExact mailLogColumns StoredMailLog.searched (SatisfiesMail filters)
        (fun table orderBy page => listMailLogs table filters orderBy page pageSize) ↔
      Searchable filters.keyword) :=
  ⟨executionLogs_exact_iff filters pageSize, mailLogs_exact_iff filters pageSize⟩

/-- A search for an underscore shows a mail that has none. -/
theorem sampleMail_found :
    ¬ ∃ totalPages rows, Exact (SatisfiesMail { keyword := "_" }) sampleMails.rows
      (fun page => listMailLogs sampleMails.rows { keyword := "_" }
        (Answer.sorted StoredMailLog.sentAt) page 50) totalPages rows := by
  intro h
  have hmatches := ((exact_iff sampleMails (Answer.sorted StoredMailLog.sentAt) 50).mp h).2
    sampleMail (List.mem_singleton_self _)
  obtain ⟨field, hfield, hoccurs⟩ := (hmatches.mp (by decide)).keyword (by decide)
  revert field
  decide

end EarlyWarning.LogListing
