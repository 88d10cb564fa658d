/-
# `RuleForm` — the form of a rule, and what is stored of a rule

`_submitted_rule_form` and `_validate_rule_form` of `app/routes.py`, `validate_select_sql` of
`app/sql_validator.py`, and the attributes that the three handlers that write rules set
(`RuleValues`).  The form strips the fields it needs stripped and keeps the others as they came.

The parser of SQL queries and that of cron expressions are libraries; what they decide of a text
is an argument (`RuleLibraries`).
-/
import EarlyWarning.Executor
import EarlyWarning.FormValues
import EarlyWarning.Lib.Json
import EarlyWarning.Session

namespace EarlyWarning

open Lib

/-! ## The libraries -/

structure RuleLibraries (φ : Type) where
  floats : Json.Floats φ
  /-- `str.isprintable` of one character -/
  isPrintable : Char → Bool
  /-- the levels of a document that the interpreter's stack has room for -/
  nesting : Nat
  /-- `validate_select_sql` from the tokenizer on: nothing, or the text of its error -/
  parseSelect : PyText → Except String Unit
  /-- `CronTrigger.from_crontab` raises no `ValueError` -/
  fromCrontab : PyText → Bool

variable {φ : Type} (libs : RuleLibraries φ)

/-- `validate_select_only_sql` -/
def validateSelectOnlySql (sql : PyText) : Except String Unit :=
  if PyText.strip sql = [] then .error "SQL 不能为空" else libs.parseSelect (PyText.strip sql)

/-- `SendMode(value)` -/
def sendMode? (value : PyText) : Option SendMode :=
  if value = PyText.ofString "summary" then some .summary
  else if value = PyText.ofString "per_row" then some .perRow
  else none

/-- `send_mode.value` -/
def SendMode.value : SendMode → String
  | .summary => "summary"
  | .perRow => "per_row"

/-- `_has_recipient_text` -/
def hasRecipientText (value : PyText) : Bool :=
  (value.splitOnP fun c => c = .char ',' || c = .char ';').any fun recipient =>
    PyText.strip recipient ≠ []

/-! ## The form -/

structure RuleForm where
  name : PyText
  dataSourceId : PyText
  sqlText : PyText
  cronExpression : PyText
  recipients : PyText
  ccRecipients : PyText
  subjectTemplate : PyText
  bodyTemplate : PyText
  sendMode : PyText
  queryTimeoutSeconds : PyText
  maxRows : PyText
  enabled : Option PyText
  dynamicRecipientField : PyText
  dynamicCcField : PyText
  suppressDuplicates : Option PyText
  suppressionKeyField : PyText
  suppressionWindowHours : Int
deriving DecidableEq

/-- `_is_checked`, of a text. -/
def isCheckedText (value : Option PyText) : Bool := isChecked (value.bind PyText.encode?)

/-- What ends a request before its transaction. -/
inductive Refusal
  /-- the page with an error, and status 400 -/
  | page (error : String)
  | raised (error : ServerError)
deriving DecidableEq

/-- `session.get(SqlDataSource, source_id)` -/
def getSource (sources : List SqlDataSource) (id : Int) : Except ServerError (Option SqlDataSource) :=
  if IsInt64 id then .ok (sources.find? fun source => source.id = id) else .error .overflowError

/-- What `_validate_rule_form` returns, with the two numbers it leaves in the form. -/
structure ValidatedForm where
  sourceId : Nat
  sendMode : SendMode
  queryTimeoutSeconds : Int
  maxRows : Int
deriving DecidableEq

/-- The data source that a form names. -/
def validateSource (sources : List SqlDataSource) (dataSourceId : PyText) : Except Refusal Nat :=
  match PyText.int? dataSourceId with
  | none => .error (.page "请选择有效的数据源")
  | some id =>
      match getSource sources id with
      | .error error => .error (.raised error)
      | .ok none => .error (.page "请选择有效的数据源")
      | .ok (some source) => .ok source.id

/-- The query and the send mode of a form. -/
def validateQuery (form : RuleForm) : Except Refusal SendMode :=
  match validateSelectOnlySql libs form.sqlText with
  | .error message => .error (.page (if message = "" then "表单数据无效" else message))
  | .ok () =>
      match sendMode? form.sendMode with
      | some sendMode => .ok sendMode
      | none =>
          .error (.page (String.ofList (PyText.repr libs.isPrintable form.sendMode) ++
            " is not a valid SendMode"))

/-- The suppression fields of a form: its error, if they have one. -/
def suppressionError (form : RuleForm) : Option String :=
  if isCheckedText form.suppressDuplicates then
    if PyText.strip form.suppressionKeyField = [] then some "启用重复抑制时必须填写去重字段"
    else if form.suppressionWindowHours ≤ 0 then some "重复抑制窗口必须是正整数"
    else none
  else none

/-- `_validate_rule_form` -/
def validateRuleForm (sources : List SqlDataSource) (form : RuleForm) :
    Except Refusal ValidatedForm :=
  match parseRuleLimits form.queryTimeoutSeconds form.maxRows with
  | .error error => .error (.page error)
  | .ok (queryTimeoutSeconds, maxRows) =>
      match validateQuery libs form with
      | .error refusal => .error refusal
      | .ok sendMode =>
          if PyText.strip form.dynamicRecipientField ≠ [] ∧ sendMode ≠ .perRow then
            .error (.page "动态收件人字段仅支持每行一封模式")
          else if hasRecipientText form.recipients = false ∧
              PyText.strip form.dynamicRecipientField = [] then
            .error (.page "请填写收件人或动态收件人字段")
          else if libs.fromCrontab form.cronExpression = false then
            .error (.page "Cron 表达式无效")
          else
            match validateSource sources form.dataSourceId with
            | .error refusal => .error refusal
            | .ok sourceId =>
                match suppressionError form with
                | some error => .error (.page error)
                | none => .ok { sourceId, sendMode, queryTimeoutSeconds, maxRows }

/-! ## What is stored -/

/-- The attributes that the handlers set. -/
structure RuleValues where
  name : PyText
  dataSourceId : Nat
  sqlText : PyText
  cronExpression : PyText
  recipients : PyText
  ccRecipients : PyText
  subjectTemplate : PyText
  bodyTemplate : PyText
  sendMode : SendMode
  queryTimeoutSeconds : Int
  maxRows : Int
  enabled : Bool
  notes : PyText
  dynamicRecipientField : PyText
  dynamicCcField : PyText
  suppressDuplicates : Bool
  suppressionKeyField : PyText
  suppressionWindowHours : Int
deriving DecidableEq

/-- The attributes that `create_rule` and `update_rule` set; the form has no notes. -/
def RuleForm.values (form : RuleForm) (validated : ValidatedForm) (notes : PyText) :
    RuleValues where
  name := form.name
  dataSourceId := validated.sourceId
  sqlText := form.sqlText
  cronExpression := form.cronExpression
  recipients := form.recipients
  ccRecipients := form.ccRecipients
  subjectTemplate := form.subjectTemplate
  bodyTemplate := form.bodyTemplate
  sendMode := validated.sendMode
  queryTimeoutSeconds := validated.queryTimeoutSeconds
  maxRows := validated.maxRows
  enabled := isCheckedText form.enabled
  notes
  dynamicRecipientField := PyText.strip form.dynamicRecipientField
  dynamicCcField := PyText.strip form.dynamicCcField
  suppressDuplicates := isCheckedText form.suppressDuplicates
  suppressionKeyField := PyText.strip form.suppressionKeyField
  suppressionWindowHours := form.suppressionWindowHours

/-- The attributes of a row. -/
def AlertRule.values (rule : AlertRule) : RuleValues where
  name := .ofString rule.name
  dataSourceId := rule.dataSourceId
  sqlText := .ofString rule.sqlText
  cronExpression := .ofString rule.cronExpression
  recipients := .ofString rule.recipients
  ccRecipients := .ofString rule.ccRecipients
  subjectTemplate := .ofString rule.subjectTemplate
  bodyTemplate := .ofString rule.bodyTemplate
  sendMode := rule.sendMode
  queryTimeoutSeconds := rule.queryTimeoutSeconds
  maxRows := rule.maxRows
  enabled := rule.enabled
  notes := .ofString rule.notes
  dynamicRecipientField := .ofString rule.dynamicRecipientField
  dynamicCcField := .ofString rule.dynamicCcField
  suppressDuplicates := rule.suppressDuplicates
  suppressionKeyField := .ofString rule.suppressionKeyField
  suppressionWindowHours := rule.suppressionWindowHours

/-- A text as a parameter of a statement. -/
def storeText (t : PyText) : Except ServerError String :=
  match PyText.encode? t with
  | some s => .ok s
  | none => .error .unicodeEncodeError

/-- An integer as a parameter of a statement. -/
def storeInt (n : Int) : Except ServerError Int :=
  if IsInt64 n then .ok n else .error .overflowError

/-- The row with these attributes, as it is written: `row` with the columns of `values`. -/
def RuleValues.store (values : RuleValues) (row : AlertRule) : Except ServerError AlertRule := do
  let name ← storeText values.name
  let sqlText ← storeText values.sqlText
  let cronExpression ← storeText values.cronExpression
  let recipients ← storeText values.recipients
  let ccRecipients ← storeText values.ccRecipients
  let subjectTemplate ← storeText values.subjectTemplate
  let bodyTemplate ← storeText values.bodyTemplate
  let queryTimeoutSeconds ← storeInt values.queryTimeoutSeconds
  let maxRows ← storeInt values.maxRows
  let notes ← storeText values.notes
  let dynamicRecipientField ← storeText values.dynamicRecipientField
  let dynamicCcField ← storeText values.dynamicCcField
  let suppressionKeyField ← storeText values.suppressionKeyField
  let suppressionWindowHours ← storeInt values.suppressionWindowHours
  .ok { row with
    name
    dataSourceId := values.dataSourceId
    sqlText
    cronExpression
    recipients
    ccRecipients
    subjectTemplate
    bodyTemplate
    sendMode := values.sendMode
    queryTimeoutSeconds
    maxRows
    enabled := values.enabled
    notes
    dynamicRecipientField
    dynamicCcField
    suppressDuplicates := values.suppressDuplicates
    suppressionKeyField
    suppressionWindowHours }

/-! ## What is accepted -/

variable {libs} {sources : List SqlDataSource} {form : RuleForm} {validated : ValidatedForm}
  {values : RuleValues} {row stored : AlertRule} {t : PyText} {s : String} {n m : Int} {id : Nat}

/-- The pieces of a text are those of the string. -/
theorem recipientPieces_ofString (s : String) :
    (PyText.ofString s).splitOnP (fun c => c = .char ',' || c = .char ';') =
      (PyStr.splitClass (fun c => c == ',' || c == ';') s).map PyText.ofString := by
  have hsep : (fun c => decide (c = PyChar.char ',') || decide (c = PyChar.char ';')) ∘
      PyChar.char = fun c => c == ',' || c == ';' := by
    funext c
    simp only [Function.comp_apply, PyChar.char.injEq]
    rfl
  rw [PyText.ofString, PyText.splitOnP_map, hsep, PyStr.splitClass, List.map_map]
  refine List.map_congr_left fun piece _ => ?_
  rw [Function.comp_apply, PyText.ofString, String.toList_ofList]

theorem hasRecipientText_ofString : hasRecipientText (PyText.ofString s) = true ↔
    parseRecipients s ≠ [] := by
  rw [hasRecipientText, recipientPieces_ofString, List.any_map, List.any_eq_true, parseRecipients,
    Ne, List.filter_eq_nil_iff]
  simp [PyText.strip_ofString]

theorem storeText_eq_ok : storeText t = .ok s ↔ t = PyText.ofString s := by
  rw [← PyText.encode?_eq_some, storeText]
  cases PyText.encode? t with
  | none => simp
  | some s' => simp

theorem storeInt_eq_ok : storeInt n = .ok m ↔ IsInt64 n ∧ m = n := by
  rw [storeInt]
  split
  case isTrue h => simp [h, eq_comm]
  case isFalse h => simp [h]

/-- `stored` is `row` with these attributes. -/
structure RuleValues.Stored (values : RuleValues) (row stored : AlertRule) : Prop where
  values : stored.values = values
  queryTimeoutSeconds : IsInt64 stored.queryTimeoutSeconds
  maxRows : IsInt64 stored.maxRows
  suppressionWindowHours : IsInt64 stored.suppressionWindowHours
  id : stored.id = row.id
  createdAt : stored.createdAt = row.createdAt
  archivedAt : stored.archivedAt = row.archivedAt
  updatedAt : stored.updatedAt = row.updatedAt

theorem RuleValues.store_eq_ok : values.store row = .ok stored ↔ values.Stored row stored := by
  constructor
  · intro h
    simp only [RuleValues.store, bind_eq_ok, storeText_eq_ok, storeInt_eq_ok] at h
    obtain ⟨name, hname, sqlText, hsqlText, cronExpression, hcronExpression, recipients,
      hrecipients, ccRecipients, hccRecipients, subjectTemplate, hsubjectTemplate, bodyTemplate,
      hbodyTemplate, _, ⟨hquery, rfl⟩, _, ⟨hmaxRows, rfl⟩, notes, hnotes, dynamicRecipientField,
      hdynamicRecipientField, dynamicCcField, hdynamicCcField, suppressionKeyField,
      hsuppressionKeyField, _, ⟨hwindow, rfl⟩, hstored⟩ := h
    cases hstored
    refine ⟨?_, hquery, hmaxRows, hwindow, rfl, rfl, rfl, rfl⟩
    simp only [AlertRule.values, ← hname, ← hsqlText, ← hcronExpression, ← hrecipients,
      ← hccRecipients, ← hsubjectTemplate, ← hbodyTemplate, ← hnotes, ← hdynamicRecipientField,
      ← hdynamicCcField, ← hsuppressionKeyField]
  · rintro ⟨rfl, hquery, hmaxRows, hwindow, hid, hcreated, harchived, hupdated⟩
    have hok : ∀ n : Int, IsInt64 n → storeInt n = .ok n := fun n hn =>
      storeInt_eq_ok.mpr ⟨hn, rfl⟩
    have htext : ∀ s : String, storeText (.ofString s) = .ok s := fun s =>
      storeText_eq_ok.mpr rfl
    simp only [RuleValues.store, AlertRule.values, htext, hok _ hquery, hok _ hmaxRows,
      hok _ hwindow, bind, Except.bind, ← hid, ← hcreated, ← harchived, ← hupdated]

/-- What a rule must be for the executor. -/
structure RuleValues.Valid (libs : RuleLibraries φ) (sources : List SqlDataSource)
    (values : RuleValues) : Prop where
  queryTimeoutSeconds : 1 ≤ values.queryTimeoutSeconds ∧ values.queryTimeoutSeconds ≤ 600
  maxRows : 1 ≤ values.maxRows ∧ values.maxRows ≤ 5000
  sqlText : validateSelectOnlySql libs values.sqlText = .ok ()
  cronExpression : libs.fromCrontab values.cronExpression = true
  dataSource : values.dataSourceId ∈ sources.map SqlDataSource.id
  summary : values.sendMode = .summary → values.dynamicRecipientField = []
  recipients : hasRecipientText values.recipients = true ∨ values.dynamicRecipientField ≠ []
  suppression : values.suppressDuplicates = true →
    PyText.strip values.suppressionKeyField ≠ [] ∧ 1 ≤ values.suppressionWindowHours

theorem validateQuery_eq_ok {sendMode : SendMode} (h : validateQuery libs form = .ok sendMode) :
    validateSelectOnlySql libs form.sqlText = .ok () := by
  simp only [validateQuery] at h
  split at h
  case h_1 => cases h
  case h_2 hsql => exact hsql

theorem validateSource_eq_ok (h : validateSource sources t = .ok id) :
    id ∈ sources.map SqlDataSource.id := by
  simp only [validateSource] at h
  split at h
  case h_1 => cases h
  case h_2 =>
    split at h
    case h_1 => cases h
    case h_2 => cases h
    case h_3 source hsource =>
      cases h
      simp only [getSource] at hsource
      split at hsource
      case isTrue =>
        have hfind := List.mem_of_find?_eq_some (Except.ok.inj hsource)
        exact List.mem_map.mpr ⟨source, hfind, rfl⟩
      case isFalse => cases hsource

theorem suppressionError_eq_none (h : suppressionError form = none) :
    isCheckedText form.suppressDuplicates = true →
      PyText.strip form.suppressionKeyField ≠ [] ∧ 1 ≤ form.suppressionWindowHours := by
  intro hchecked
  simp only [suppressionError, hchecked, if_true] at h
  split at h
  case isTrue => cases h
  case isFalse hkey =>
    split at h
    case isTrue => cases h
    case isFalse hwindow => exact ⟨hkey, by omega⟩

/-- **What the form lets through.** -/
theorem validateRuleForm_valid (h : validateRuleForm libs sources form = .ok validated)
    (notes : PyText) : (form.values validated notes).Valid libs sources := by
  simp only [validateRuleForm] at h
  split at h
  case h_1 => cases h
  case h_2 hlimits =>
    split at h
    case h_1 => cases h
    case h_2 sendMode hquery =>
      split at h
      case isTrue => cases h
      case isFalse hdynamic =>
        split at h
        case isTrue => cases h
        case isFalse hrecipients =>
          split at h
          case isTrue => cases h
          case isFalse hcron =>
            split at h
            case h_1 => cases h
            case h_2 sourceId hsource =>
              split at h
              case h_1 => cases h
              case h_2 hsuppression =>
                cases h
                obtain ⟨hquerySeconds, hmaxRows⟩ := parseBoundedPair_eq_ok hlimits
                refine ⟨hquerySeconds, hmaxRows, validateQuery_eq_ok hquery,
                  eq_true_of_ne_false hcron, validateSource_eq_ok hsource, ?_, ?_, ?_⟩
                · rintro hsummary
                  by_contra hne
                  refine hdynamic ⟨hne, ?_⟩
                  rw [show sendMode = .summary from hsummary]
                  decide
                · by_contra hnone
                  rw [not_or, not_not] at hnone
                  exact hrecipients ⟨Bool.eq_false_iff.mpr hnone.1, hnone.2⟩
                · intro hchecked
                  obtain ⟨hkey, hwindow⟩ := suppressionError_eq_none hsuppression hchecked
                  refine ⟨?_, hwindow⟩
                  show PyText.strip (PyText.strip form.suppressionKeyField) ≠ []
                  rwa [PyText.strip_strip]

theorem RuleValues.Valid.mono {sources' : List SqlDataSource} (h : values.Valid libs sources)
    (hsub : sources.map SqlDataSource.id ⊆ sources'.map SqlDataSource.id) :
    values.Valid libs sources' :=
  { h with dataSource := hsub h.dataSource }

/-- The fields that every handler strips. -/
structure RuleValues.Trimmed (values : RuleValues) : Prop where
  dynamicRecipientField : PyText.strip values.dynamicRecipientField = values.dynamicRecipientField
  dynamicCcField : PyText.strip values.dynamicCcField = values.dynamicCcField
  suppressionKeyField : PyText.strip values.suppressionKeyField = values.suppressionKeyField

theorem RuleForm.trimmed (form : RuleForm) (validated : ValidatedForm) (notes : PyText) :
    (form.values validated notes).Trimmed :=
  ⟨PyText.strip_strip _, PyText.strip_strip _, PyText.strip_strip _⟩

/-! ## What SQLite has room for -/

/-- The texts of a rule. -/
def RuleValues.texts (values : RuleValues) : List PyText :=
  [values.name, values.sqlText, values.cronExpression, values.recipients, values.ccRecipients,
    values.subjectTemplate, values.bodyTemplate, values.notes, values.dynamicRecipientField,
    values.dynamicCcField, values.suppressionKeyField]

/-- The texts have no lone half of a surrogate pair, and the integers have 64 bits. -/
structure RuleValues.Storable (values : RuleValues) : Prop where
  texts : ∀ t ∈ values.texts, (PyText.encode? t).isSome
  queryTimeoutSeconds : IsInt64 values.queryTimeoutSeconds
  maxRows : IsInt64 values.maxRows
  suppressionWindowHours : IsInt64 values.suppressionWindowHours

theorem AlertRule.texts_encode (rule : AlertRule) :
    ∀ t ∈ rule.values.texts, (PyText.encode? t).isSome := by
  intro t ht
  have hstring : ∃ s : String, t = .ofString s := by
    simp only [RuleValues.texts, AlertRule.values, List.mem_cons, List.not_mem_nil, or_false] at ht
    rcases ht with rfl | rfl | rfl | rfl | rfl | rfl | rfl | rfl | rfl | rfl | rfl <;>
      exact ⟨_, rfl⟩
  obtain ⟨s, rfl⟩ := hstring
  rw [PyText.encode?_ofString]
  rfl

theorem RuleValues.Stored.storable (h : values.Stored row stored) : values.Storable := by
  obtain ⟨rfl, hquery, hmaxRows, hwindow, -⟩ := h
  exact ⟨stored.texts_encode, hquery, hmaxRows, hwindow⟩

/-- A rule is written when there is room for it. -/
theorem RuleValues.store_isOk (row : AlertRule) :
    (∃ stored, values.store row = .ok stored) ↔ values.Storable := by
  constructor
  · rintro ⟨stored, hstored⟩
    exact (RuleValues.store_eq_ok.mp hstored).storable
  · intro h
    have htext : ∀ t ∈ values.texts, ∃ s, storeText t = .ok s := by
      intro t ht
      obtain ⟨s, hs⟩ := Option.isSome_iff_exists.mp (h.texts t ht)
      exact ⟨s, by rw [storeText, hs]⟩
    have hint : ∀ n, IsInt64 n → storeInt n = .ok n := fun n hn =>
      storeInt_eq_ok.mpr ⟨hn, rfl⟩
    simp only [RuleValues.texts, List.forall_mem_cons, List.not_mem_nil, false_imp_iff,
      implies_true, and_true] at htext
    obtain ⟨⟨name, hname⟩, ⟨sqlText, hsqlText⟩, ⟨cron, hcron⟩, ⟨recipients, hrecipients⟩,
      ⟨cc, hcc⟩, ⟨subject, hsubject⟩, ⟨body, hbody⟩, ⟨notes, hnotes⟩, ⟨dynamic, hdynamic⟩,
      ⟨dynamicCc, hdynamicCc⟩, ⟨key, hkey⟩⟩ := htext
    simp only [RuleValues.store, hname, hsqlText, hcron, hrecipients, hcc, hsubject, hbody, hnotes,
      hdynamic, hdynamicCc, hkey, hint _ h.queryTimeoutSeconds, hint _ h.maxRows,
      hint _ h.suppressionWindowHours, bind, Except.bind]
    exact ⟨_, rfl⟩

end EarlyWarning
