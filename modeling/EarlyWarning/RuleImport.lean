/-
# `RuleImport` — the rules of an uploaded document

`_build_imported_rules` of `app/routes.py` and the functions it reads the fields of a rule with.
A field may be any value of a document: texts are what `str` makes of it, integers what `int`
makes of it, and flags what `bool` makes of it.

The functions stop at the first thing that is wrong.  `Importable` says, of the fields alone, when
nothing is, `importedValues` which rule they stand for, and `Overflows` when an infinite number is
reached first: `int` raises an `OverflowError` for it, and only `TypeError` and `ValueError` are
caught.
-/
import EarlyWarning.RuleForm

namespace EarlyWarning

open Lib

/-! ## The fields of a rule -/

/-- What building the rules raises. -/
inductive ImportError
  | valueError (message : String)
  | overflowError
deriving DecidableEq

/-- An object of the document. -/
abbrev Fields (φ : Type) := List (PyText × Json φ)

variable {φ : Type} (libs : RuleLibraries φ) (fields : Fields φ)

/-- `_optional_import_text` -/
def optionalImportText (field : String) : PyText :=
  match Json.get? fields field with
  | some value => Json.toText libs.floats libs.isPrintable value
  | none => []

/-- `_required_import_text` -/
def requiredImportText (field : String) (index : Nat) (label : String) : Except String PyText :=
  let value := PyText.strip (optionalImportText libs fields field)
  if value = [] then .error s!"第 {index} 条规则缺少{label}" else .ok value

/-- `int(rule_data.get(field, default))` -/
def importInt (field : String) (default : Int) : Except Json.IntError Int :=
  match Json.get? fields field with
  | some value => Json.toInt libs.floats value
  | none => .ok default

/-- `_positive_import_int` -/
def positiveImportInt (field : String) (index : Nat) (label : String) (default : Int) :
    Except ImportError Int :=
  match importInt libs fields field default with
  | .error .overflowError => .error .overflowError
  | .error .notANumber => .error (.valueError s!"第 {index} 条规则{label}必须是正整数")
  | .ok parsed =>
      if parsed ≤ 0 then .error (.valueError s!"第 {index} 条规则{label}必须是正整数")
      else .ok parsed

/-- `_bounded_import_int` -/
def boundedImportInt (field : String) (index : Nat) (label : String) (default maximum : Int) :
    Except ImportError Int :=
  match importInt libs fields field default with
  | .error .overflowError => .error .overflowError
  | .error .notANumber => .error (.valueError s!"第 {index} 条规则{label}必须是整数")
  | .ok parsed =>
      match validateBoundedInt parsed label 1 maximum with
      | some error => .error (.valueError s!"第 {index} 条规则{error}")
      | none => .ok parsed

/-- `bool(rule_data.get(field, default))` -/
def importFlag (field : String) (default : Bool) : Bool :=
  match Json.get? fields field with
  | some value => Json.truth libs.floats value
  | none => default

/-! ## One rule -/

/-- What is read of a rule before its numbers. -/
structure ImportedTexts where
  name : PyText
  dataSourceId : Nat
  sqlText : PyText
  cronExpression : PyText
  sendMode : SendMode
  dynamicRecipientField : PyText
  recipients : PyText
deriving DecidableEq

def findSourceByName (sources : List SqlDataSource) (name : PyText) : Option SqlDataSource :=
  sources.find? fun source => PyText.ofString source.name = name

/-- The data source that a rule names. -/
def importSource (sources : List SqlDataSource) (index : Nat) : Except String Nat := do
  let name ← requiredImportText libs fields "data_source_name" index "数据源名称"
  match findSourceByName sources name with
  | none => .error s!"第 {index} 条规则的数据源不存在"
  | some source => .ok source.id

def importSql (index : Nat) : Except String PyText := do
  let sqlText ← requiredImportText libs fields "sql_text" index "SQL 查询"
  match validateSelectOnlySql libs sqlText with
  | .error message => .error s!"第 {index} 条规则 SQL 无效：{message}"
  | .ok () => .ok sqlText

def importCron (index : Nat) : Except String PyText := do
  let cronExpression ← requiredImportText libs fields "cron_expression" index "Cron 表达式"
  if libs.fromCrontab cronExpression = false then .error s!"第 {index} 条规则 Cron 表达式无效"
  else .ok cronExpression

/-- The send mode of a rule, if it is one. -/
def importedSendMode : Option SendMode :=
  let value := optionalImportText libs fields "send_mode"
  if value = [] then some .summary else sendMode? value

def importSendMode (index : Nat) : Except String SendMode :=
  match importedSendMode libs fields with
  | none => .error s!"第 {index} 条规则发送方式无效"
  | some sendMode => .ok sendMode

/-- The fixed recipients and the field of the dynamic ones. -/
def importRecipients (index : Nat) (sendMode : SendMode) : Except String (PyText × PyText) :=
  let dynamicRecipientField := PyText.strip (optionalImportText libs fields "dynamic_recipient_field")
  let recipients := PyText.strip (optionalImportText libs fields "recipients")
  if dynamicRecipientField ≠ [] ∧ sendMode ≠ .perRow then
    .error s!"第 {index} 条规则动态收件人字段仅支持每行一封模式"
  else if hasRecipientText recipients = false ∧ dynamicRecipientField = [] then
    .error s!"第 {index} 条规则缺少收件人或动态收件人字段"
  else .ok (dynamicRecipientField, recipients)

/-- The part of the loop of `_build_imported_rules` before the object is built. -/
def importTexts (sources : List SqlDataSource) (index : Nat) : Except String ImportedTexts := do
  let name ← requiredImportText libs fields "name" index "规则名称"
  let dataSourceId ← importSource libs fields sources index
  let sqlText ← importSql libs fields index
  let cronExpression ← importCron libs fields index
  let sendMode ← importSendMode libs fields index
  let (dynamicRecipientField, recipients) ← importRecipients libs fields index sendMode
  .ok { name, dataSourceId, sqlText, cronExpression, sendMode, dynamicRecipientField, recipients }

/-- The rest of the loop. -/
def importRule (sources : List SqlDataSource) (index : Nat) : Except ImportError RuleValues := do
  let texts ← (importTexts libs fields sources index).mapError .valueError
  let queryTimeoutSeconds ←
    boundedImportInt libs fields "query_timeout_seconds" index "查询超时时间" 30 600
  let maxRows ← boundedImportInt libs fields "max_rows" index "最大返回行数" 500 5000
  let suppressionWindowHours ←
    positiveImportInt libs fields "suppression_window_hours" index "重复抑制窗口" 24
  let suppressDuplicates := importFlag libs fields "suppress_duplicates" false
  let suppressionKeyField :=
    PyText.strip (optionalImportText libs fields "suppression_key_field")
  if suppressDuplicates ∧ suppressionKeyField = [] then
    .error (.valueError s!"第 {index} 条规则启用重复抑制时必须填写去重字段")
  else
    .ok
      { name := texts.name
        dataSourceId := texts.dataSourceId
        sqlText := texts.sqlText
        cronExpression := texts.cronExpression
        recipients := texts.recipients
        ccRecipients := optionalImportText libs fields "cc_recipients"
        subjectTemplate := optionalImportText libs fields "subject_template"
        bodyTemplate := optionalImportText libs fields "body_template"
        sendMode := texts.sendMode
        queryTimeoutSeconds
        maxRows
        enabled := importFlag libs fields "enabled" true
        notes := optionalImportText libs fields "notes"
        dynamicRecipientField := texts.dynamicRecipientField
        dynamicCcField := PyText.strip (optionalImportText libs fields "dynamic_cc_field")
        suppressDuplicates
        suppressionKeyField
        suppressionWindowHours }

/-! ## The document -/

/-- `MAX_IMPORTED_RULES` -/
def maxImportedRules : Nat := 500

/-- The loop of `_build_imported_rules`. -/
def importRules (sources : List SqlDataSource) :
    Nat → List (Json φ) → Except ImportError (List RuleValues)
  | _, [] => .ok []
  | index, .dict fields :: rest => do
      let values ← importRule libs fields sources index
      let others ← importRules sources (index + 1) rest
      .ok (values :: others)
  | index, _ :: _ => .error (.valueError s!"第 {index} 条规则格式无效")

/-- `_build_imported_rules` -/
def buildImportedRules (sources : List SqlDataSource) (payload : Json φ) :
    Except ImportError (List RuleValues) :=
  match payload with
  | .dict fields =>
      if ((Json.get? fields "version").any (Json.isOne libs.floats)) = false then
        .error (.valueError "导入文件格式无效：仅支持 version 1")
      else
        match Json.get? fields "rules" with
        | some (.list rules) =>
            if rules.length > maxImportedRules then
              .error (.valueError s!"导入规则数量不能超过 {maxImportedRules} 条")
            else importRules libs sources 1 rules
        | _ => .error (.valueError "导入文件格式无效：rules 必须是列表")
  | _ => .error (.valueError "导入文件格式无效：仅支持 version 1")

/-! ## What is importable -/

/-- The texts of a rule are those of one. -/
structure TextsOk (libs : RuleLibraries φ) (sources : List SqlDataSource) (fields : Fields φ) :
    Prop where
  name : PyText.strip (optionalImportText libs fields "name") ≠ []
  dataSourceName : PyText.strip (optionalImportText libs fields "data_source_name") ≠ []
  dataSource : ∃ source ∈ sources,
    PyText.ofString source.name = PyText.strip (optionalImportText libs fields "data_source_name")
  sqlText : PyText.strip (optionalImportText libs fields "sql_text") ≠ []
  select : validateSelectOnlySql libs
    (PyText.strip (optionalImportText libs fields "sql_text")) = .ok ()
  cronExpression : PyText.strip (optionalImportText libs fields "cron_expression") ≠ []
  crontab : libs.fromCrontab
    (PyText.strip (optionalImportText libs fields "cron_expression")) = true
  sendMode : (importedSendMode libs fields).isSome
  summary : importedSendMode libs fields = some .summary →
    PyText.strip (optionalImportText libs fields "dynamic_recipient_field") = []
  recipients :
    hasRecipientText (PyText.strip (optionalImportText libs fields "recipients")) = true ∨
      PyText.strip (optionalImportText libs fields "dynamic_recipient_field") ≠ []

def IntBetween (libs : RuleLibraries φ) (fields : Fields φ) (field : String)
    (default maximum : Int) : Prop :=
  ∃ n, importInt libs fields field default = .ok n ∧ 1 ≤ n ∧ n ≤ maximum

/-- The rule is imported. -/
structure Importable (libs : RuleLibraries φ) (sources : List SqlDataSource) (fields : Fields φ) :
    Prop where
  texts : TextsOk libs sources fields
  queryTimeoutSeconds : IntBetween libs fields "query_timeout_seconds" 30 600
  maxRows : IntBetween libs fields "max_rows" 500 5000
  suppressionWindowHours : ∃ n, importInt libs fields "suppression_window_hours" 24 = .ok n ∧ 1 ≤ n
  suppressionKeyField : importFlag libs fields "suppress_duplicates" false = true →
    PyText.strip (optionalImportText libs fields "suppression_key_field") ≠ []

/-- The number of the field is not finite. -/
def Infinite (libs : RuleLibraries φ) (fields : Fields φ) (field : String) : Prop :=
  importInt libs fields field 0 = .error .overflowError

/-- An infinite number is reached: the checks before it pass. -/
structure Overflows (libs : RuleLibraries φ) (sources : List SqlDataSource) (fields : Fields φ) :
    Prop where
  texts : TextsOk libs sources fields
  number : Infinite libs fields "query_timeout_seconds" ∨
    IntBetween libs fields "query_timeout_seconds" 30 600 ∧
      (Infinite libs fields "max_rows" ∨
        IntBetween libs fields "max_rows" 500 5000 ∧
          Infinite libs fields "suppression_window_hours")

def importedInt (field : String) (default : Int) : Int :=
  match importInt libs fields field default with
  | .ok n => n
  | .error _ => default

def importedTexts (sources : List SqlDataSource) : ImportedTexts where
  name := PyText.strip (optionalImportText libs fields "name")
  dataSourceId :=
    match findSourceByName sources
        (PyText.strip (optionalImportText libs fields "data_source_name")) with
    | some source => source.id
    | none => 0
  sqlText := PyText.strip (optionalImportText libs fields "sql_text")
  cronExpression := PyText.strip (optionalImportText libs fields "cron_expression")
  sendMode := (importedSendMode libs fields).getD .summary
  dynamicRecipientField :=
    PyText.strip (optionalImportText libs fields "dynamic_recipient_field")
  recipients := PyText.strip (optionalImportText libs fields "recipients")

/-- The rule that the fields stand for. -/
def importedValues (sources : List SqlDataSource) : RuleValues where
  name := (importedTexts libs fields sources).name
  dataSourceId := (importedTexts libs fields sources).dataSourceId
  sqlText := (importedTexts libs fields sources).sqlText
  cronExpression := (importedTexts libs fields sources).cronExpression
  recipients := (importedTexts libs fields sources).recipients
  ccRecipients := optionalImportText libs fields "cc_recipients"
  subjectTemplate := optionalImportText libs fields "subject_template"
  bodyTemplate := optionalImportText libs fields "body_template"
  sendMode := (importedTexts libs fields sources).sendMode
  queryTimeoutSeconds := importedInt libs fields "query_timeout_seconds" 30
  maxRows := importedInt libs fields "max_rows" 500
  enabled := importFlag libs fields "enabled" true
  notes := optionalImportText libs fields "notes"
  dynamicRecipientField := (importedTexts libs fields sources).dynamicRecipientField
  dynamicCcField := PyText.strip (optionalImportText libs fields "dynamic_cc_field")
  suppressDuplicates := importFlag libs fields "suppress_duplicates" false
  suppressionKeyField := PyText.strip (optionalImportText libs fields "suppression_key_field")
  suppressionWindowHours := importedInt libs fields "suppression_window_hours" 24

variable {libs} {fields} {sources : List SqlDataSource} {field label : String} {index id : Nat}
  {default maximum n : Int} {t : PyText} {texts : ImportedTexts} {values : RuleValues}
  {sendMode : SendMode}

theorem requiredImportText_eq_ok : requiredImportText libs fields field index label = .ok t ↔
    PyText.strip (optionalImportText libs fields field) ≠ [] ∧
      t = PyText.strip (optionalImportText libs fields field) := by
  simp only [requiredImportText]
  split
  case isTrue h => simp [h]
  case isFalse h => simp [h, eq_comm]

theorem importSource_eq_ok : importSource libs fields sources index = .ok id ↔
    PyText.strip (optionalImportText libs fields "data_source_name") ≠ [] ∧
      (∃ source ∈ sources, PyText.ofString source.name =
        PyText.strip (optionalImportText libs fields "data_source_name")) ∧
      id = (importedTexts libs fields sources).dataSourceId := by
  simp only [importSource, bind_eq_ok, requiredImportText_eq_ok, importedTexts]
  cases hfind : findSourceByName sources
      (PyText.strip (optionalImportText libs fields "data_source_name")) with
  | none =>
      have hnone := List.find?_eq_none.mp hfind
      constructor
      · rintro ⟨_, ⟨-, rfl⟩, hok⟩
        rw [hfind] at hok
        cases hok
      · rintro ⟨-, ⟨source, hsource, hname⟩, -⟩
        exact absurd hname (by simpa using hnone source hsource)
  | some source =>
      have hmem := List.mem_of_find?_eq_some hfind
      have hname : PyText.ofString source.name =
          PyText.strip (optionalImportText libs fields "data_source_name") := by
        simpa using List.find?_some hfind
      constructor
      · rintro ⟨_, ⟨hne, rfl⟩, hok⟩
        rw [hfind] at hok
        cases hok
        exact ⟨hne, ⟨source, hmem, hname⟩, rfl⟩
      · rintro ⟨hne, -, rfl⟩
        exact ⟨_, ⟨hne, rfl⟩, by rw [hfind]⟩

theorem importSql_eq_ok : importSql libs fields index = .ok t ↔
    PyText.strip (optionalImportText libs fields "sql_text") ≠ [] ∧
      validateSelectOnlySql libs (PyText.strip (optionalImportText libs fields "sql_text")) = .ok () ∧
      t = PyText.strip (optionalImportText libs fields "sql_text") := by
  simp only [importSql, bind_eq_ok, requiredImportText_eq_ok]
  constructor
  · rintro ⟨_, ⟨hne, rfl⟩, hok⟩
    split at hok
    case h_1 => cases hok
    case h_2 hselect =>
      cases hok
      exact ⟨hne, hselect, rfl⟩
  · rintro ⟨hne, hselect, rfl⟩
    exact ⟨_, ⟨hne, rfl⟩, by rw [hselect]⟩

theorem importCron_eq_ok : importCron libs fields index = .ok t ↔
    PyText.strip (optionalImportText libs fields "cron_expression") ≠ [] ∧
      libs.fromCrontab (PyText.strip (optionalImportText libs fields "cron_expression")) = true ∧
      t = PyText.strip (optionalImportText libs fields "cron_expression") := by
  simp only [importCron, bind_eq_ok, requiredImportText_eq_ok]
  constructor
  · rintro ⟨_, ⟨hne, rfl⟩, hok⟩
    split at hok
    case isTrue => cases hok
    case isFalse hcron =>
      cases hok
      exact ⟨hne, eq_true_of_ne_false hcron, rfl⟩
  · rintro ⟨hne, hcron, rfl⟩
    exact ⟨_, ⟨hne, rfl⟩, if_neg (by rw [hcron]; decide)⟩

theorem importSendMode_eq_ok : importSendMode libs fields index = .ok sendMode ↔
    importedSendMode libs fields = some sendMode := by
  simp only [importSendMode]
  split
  case h_1 hnone => simp [hnone]
  case h_2 hsome => simp [hsome]

theorem importRecipients_eq_ok {pair : PyText × PyText} :
    importRecipients libs fields index sendMode = .ok pair ↔
      (sendMode = .summary →
        PyText.strip (optionalImportText libs fields "dynamic_recipient_field") = []) ∧
      (hasRecipientText (PyText.strip (optionalImportText libs fields "recipients")) = true ∨
        PyText.strip (optionalImportText libs fields "dynamic_recipient_field") ≠ []) ∧
      pair = (PyText.strip (optionalImportText libs fields "dynamic_recipient_field"),
        PyText.strip (optionalImportText libs fields "recipients")) := by
  simp only [importRecipients]
  split
  case isTrue h =>
    refine iff_of_false (by simp) ?_
    rintro ⟨hsummary, -, -⟩
    cases sendMode with
    | summary => exact h.1 (hsummary rfl)
    | perRow => exact h.2 rfl
  case isFalse h =>
    have hsummary : sendMode = .summary →
        PyText.strip (optionalImportText libs fields "dynamic_recipient_field") = [] := by
      rintro rfl
      by_contra hne
      exact h ⟨hne, by decide⟩
    split
    case isTrue hnone =>
      refine iff_of_false (by simp) ?_
      rintro ⟨-, hsome | hsome, -⟩
      · rw [hnone.1] at hsome
        cases hsome
      · exact hsome hnone.2
    case isFalse hsome =>
      have hrecipients : hasRecipientText
          (PyText.strip (optionalImportText libs fields "recipients")) = true ∨
          PyText.strip (optionalImportText libs fields "dynamic_recipient_field") ≠ [] := by
        by_contra hnone
        rw [not_or, not_not] at hnone
        exact hsome ⟨Bool.eq_false_iff.mpr hnone.1, hnone.2⟩
      constructor
      · rintro ⟨⟩
        exact ⟨hsummary, hrecipients, rfl⟩
      · rintro ⟨-, -, rfl⟩
        rfl

/-- **The texts.** -/
theorem importTexts_eq_ok : importTexts libs fields sources index = .ok texts ↔
    TextsOk libs sources fields ∧ texts = importedTexts libs fields sources := by
  simp only [importTexts, bind_eq_ok, requiredImportText_eq_ok, importSource_eq_ok,
    importSql_eq_ok, importCron_eq_ok, importSendMode_eq_ok, importRecipients_eq_ok]
  constructor
  · rintro ⟨_, ⟨hname, rfl⟩, _, ⟨hsourceName, hsource, rfl⟩, _, ⟨hsql, hselect, rfl⟩, _,
      ⟨hcron, hcrontab, rfl⟩, sendMode, hmode, _, ⟨hsummary, hrecipients, rfl⟩, htexts⟩
    refine ⟨⟨hname, hsourceName, hsource, hsql, hselect, hcron, hcrontab, by rw [hmode]; rfl, ?_,
      hrecipients⟩, ?_⟩
    · intro hsome
      rw [hmode] at hsome
      exact hsummary (Option.some.inj hsome)
    · cases htexts
      simp only [importedTexts, hmode, Option.getD_some]
  · rintro ⟨h, rfl⟩
    obtain ⟨sendMode, hmode⟩ := Option.isSome_iff_exists.mp h.sendMode
    refine ⟨_, ⟨h.name, rfl⟩, _, ⟨h.dataSourceName, h.dataSource, rfl⟩, _,
      ⟨h.sqlText, h.select, rfl⟩, _, ⟨h.cronExpression, h.crontab, rfl⟩, sendMode, hmode, _,
      ⟨fun hsummary => h.summary (hmode.trans (congrArg some hsummary)), h.recipients, rfl⟩, ?_⟩
    simp only [importedTexts, hmode, Option.getD_some]

theorem importInt_overflow (default : Int) :
    importInt libs fields field default = .error .overflowError ↔
      Infinite libs fields field := by
  simp only [Infinite, importInt]
  cases Json.get? fields field with
  | none => simp
  | some value => rfl

theorem boundedImportInt_eq_ok :
    boundedImportInt libs fields field index label default maximum = .ok n ↔
      importInt libs fields field default = .ok n ∧ 1 ≤ n ∧ n ≤ maximum := by
  simp only [boundedImportInt]
  split
  case h_1 herror => simp [herror]
  case h_2 herror => simp [herror]
  case h_3 parsed hparsed =>
    rw [hparsed]
    split
    case h_1 error herror =>
      refine iff_of_false (by simp) ?_
      rintro ⟨⟨⟩, hbounds⟩
      rw [validateBoundedInt_eq_none.mpr hbounds] at herror
      cases herror
    case h_2 hnone =>
      have hbounds := validateBoundedInt_eq_none.mp hnone
      constructor
      · rintro ⟨⟩
        exact ⟨rfl, hbounds⟩
      · rintro ⟨⟨⟩, -⟩
        rfl

theorem boundedImportInt_overflow :
    boundedImportInt libs fields field index label default maximum = .error .overflowError ↔
      Infinite libs fields field := by
  rw [← importInt_overflow default, boundedImportInt]
  split
  case h_1 herror => simp [herror]
  case h_2 herror => simp [herror]
  case h_3 hparsed =>
    rw [hparsed]
    split <;> simp

theorem positiveImportInt_eq_ok : positiveImportInt libs fields field index label default = .ok n ↔
    importInt libs fields field default = .ok n ∧ 1 ≤ n := by
  simp only [positiveImportInt]
  split
  case h_1 herror => simp [herror]
  case h_2 herror => simp [herror]
  case h_3 parsed hparsed =>
    rw [hparsed]
    split
    case isTrue hle =>
      refine iff_of_false (by simp) ?_
      rintro ⟨⟨⟩, hpos⟩
      omega
    case isFalse hpos =>
      constructor
      · rintro ⟨⟩
        exact ⟨rfl, by omega⟩
      · rintro ⟨⟨⟩, -⟩
        rfl

theorem positiveImportInt_overflow :
    positiveImportInt libs fields field index label default = .error .overflowError ↔
      Infinite libs fields field := by
  rw [← importInt_overflow default, positiveImportInt]
  split
  case h_1 herror => simp [herror]
  case h_2 herror => simp [herror]
  case h_3 hparsed =>
    rw [hparsed]
    split <;> simp

theorem importedInt_eq (h : importInt libs fields field default = .ok n) :
    importedInt libs fields field default = n := by
  rw [importedInt, h]

theorem mapError_eq_ok {x : Except String ImportedTexts} :
    x.mapError ImportError.valueError = .ok texts ↔ x = .ok texts := by
  cases x with
  | error message => simp [Except.mapError]
  | ok texts => simp [Except.mapError]

theorem mapError_ne {x : Except String ImportedTexts} :
    (x.mapError ImportError.valueError = .error .overflowError) = False := by
  cases x with
  | error message => simp [Except.mapError]
  | ok texts => simp [Except.mapError]

/-- **One rule.**  It is built when it is importable, -/
theorem importRule_eq_ok : importRule libs fields sources index = .ok values ↔
    Importable libs sources fields ∧ values = importedValues libs fields sources := by
  simp only [importRule, bind_eq_ok, mapError_eq_ok, importTexts_eq_ok, boundedImportInt_eq_ok,
    positiveImportInt_eq_ok]
  constructor
  · rintro ⟨_, ⟨htexts, rfl⟩, query, ⟨hquery, hqueryBounds⟩, maxRows, ⟨hmaxRows, hmaxRowsBounds⟩,
      window, ⟨hwindow, hpos⟩, hok⟩
    split at hok
    case isTrue => cases hok
    case isFalse hkey =>
      refine ⟨⟨htexts, ⟨query, hquery, hqueryBounds⟩, ⟨maxRows, hmaxRows, hmaxRowsBounds⟩,
        ⟨window, hwindow, hpos⟩, fun hsuppress hnil => hkey ⟨hsuppress, hnil⟩⟩, ?_⟩
      cases hok
      rw [importedValues, importedInt_eq hquery, importedInt_eq hmaxRows, importedInt_eq hwindow]
  · rintro ⟨⟨htexts, ⟨query, hquery, hqueryBounds⟩, ⟨maxRows, hmaxRows, hmaxRowsBounds⟩,
      ⟨window, hwindow, hpos⟩, hkey⟩, rfl⟩
    refine ⟨_, ⟨htexts, rfl⟩, query, ⟨hquery, hqueryBounds⟩, maxRows, ⟨hmaxRows, hmaxRowsBounds⟩,
      window, ⟨hwindow, hpos⟩, ?_⟩
    rw [if_neg fun h => hkey h.1 h.2, importedValues, importedInt_eq hquery,
      importedInt_eq hmaxRows, importedInt_eq hwindow]

/-- and it raises an `OverflowError` when it reaches an infinite number. -/
theorem importRule_overflow : importRule libs fields sources index = .error .overflowError ↔
    Overflows libs sources fields := by
  simp only [importRule, bind_eq_error, mapError_eq_ok, mapError_ne, importTexts_eq_ok,
    boundedImportInt_eq_ok, boundedImportInt_overflow, positiveImportInt_overflow, false_or]
  constructor
  · rintro ⟨_, ⟨htexts, rfl⟩, hquery | ⟨query, ⟨hquery, hqueryBounds⟩, hmaxRows |
      ⟨maxRows, ⟨hmaxRows, hmaxRowsBounds⟩, hwindow | ⟨window, -, hlast⟩⟩⟩⟩
    · exact ⟨htexts, .inl hquery⟩
    · exact ⟨htexts, .inr ⟨⟨query, hquery, hqueryBounds⟩, .inl hmaxRows⟩⟩
    · exact ⟨htexts, .inr ⟨⟨query, hquery, hqueryBounds⟩,
        .inr ⟨⟨maxRows, hmaxRows, hmaxRowsBounds⟩, hwindow⟩⟩⟩
    · split at hlast
      · cases hlast
      · cases hlast
  · rintro ⟨htexts, hquery | ⟨⟨query, hquery, hqueryBounds⟩, hmaxRows |
      ⟨⟨maxRows, hmaxRows, hmaxRowsBounds⟩, hwindow⟩⟩⟩
    · exact ⟨_, ⟨htexts, rfl⟩, .inl hquery⟩
    · exact ⟨_, ⟨htexts, rfl⟩, .inr ⟨query, ⟨hquery, hqueryBounds⟩, .inl hmaxRows⟩⟩
    · exact ⟨_, ⟨htexts, rfl⟩, .inr ⟨query, ⟨hquery, hqueryBounds⟩,
        .inr ⟨maxRows, ⟨hmaxRows, hmaxRowsBounds⟩, .inl hwindow⟩⟩⟩

/-! ## The rules of a document -/

/-- The rules are objects, and importable. -/
def AllImportable (libs : RuleLibraries φ) (sources : List SqlDataSource) (rules : List (Json φ)) :
    Prop :=
  ∀ data ∈ rules, ∃ fields, data = .dict fields ∧ Importable libs sources fields

/-- An infinite number stands in the first rule that is not importable, and is reached. -/
def SomeOverflow (libs : RuleLibraries φ) (sources : List SqlDataSource) (rules : List (Json φ)) :
    Prop :=
  ∃ pre fields post, rules = pre ++ .dict fields :: post ∧ AllImportable libs sources pre ∧
    Overflows libs sources fields

/-- The rules that a list of values stands for. -/
def importedRules (libs : RuleLibraries φ) (sources : List SqlDataSource) (rules : List (Json φ)) :
    List RuleValues :=
  rules.map fun data =>
    match data with
    | .dict fields => importedValues libs fields sources
    | _ => importedValues libs [] sources

/-- **The loop.** -/
theorem importRules_eq_ok {rules : List (Json φ)} : ∀ {index : Nat} {imported : List RuleValues},
    importRules libs sources index rules = .ok imported ↔
      AllImportable libs sources rules ∧ imported = importedRules libs sources rules := by
  induction rules with
  | nil =>
      intro index imported
      simp [importRules, AllImportable, importedRules, eq_comm]
  | cons data rest ih =>
      intro index imported
      have hother : (∀ fields, data ≠ .dict fields) →
          (importRules libs sources index (data :: rest) = .ok imported ↔
            AllImportable libs sources (data :: rest) ∧
              imported = importedRules libs sources (data :: rest)) := by
        intro hne
        refine iff_of_false ?_ ?_
        · cases data with
          | dict fields => exact absurd rfl (hne fields)
          | _ => simp [importRules]
        · rintro ⟨hall, -⟩
          obtain ⟨fields, hfields, -⟩ := hall data List.mem_cons_self
          exact hne fields hfields
      cases data with
      | dict fields =>
          simp only [importRules, bind_eq_ok, importRule_eq_ok, ih]
          constructor
          · rintro ⟨_, ⟨himportable, rfl⟩, _, ⟨hall, rfl⟩, hok⟩
            cases hok
            refine ⟨?_, rfl⟩
            intro data hdata
            rcases List.mem_cons.mp hdata with rfl | hrest
            · exact ⟨fields, rfl, himportable⟩
            · exact hall data hrest
          · rintro ⟨hall, rfl⟩
            obtain ⟨_, ⟨⟩, himportable⟩ := hall (.dict fields) List.mem_cons_self
            exact ⟨_, ⟨himportable, rfl⟩, _,
              ⟨fun data hdata => hall data (List.mem_cons_of_mem _ hdata), rfl⟩, rfl⟩
      | null => exact hother fun _ => nofun
      | bool => exact hother fun _ => nofun
      | int => exact hother fun _ => nofun
      | float => exact hother fun _ => nofun
      | str => exact hother fun _ => nofun
      | list => exact hother fun _ => nofun

theorem importRules_overflow {rules : List (Json φ)} : ∀ {index : Nat},
    importRules libs sources index rules = .error .overflowError ↔
      SomeOverflow libs sources rules := by
  induction rules with
  | nil =>
      intro index
      simp [importRules, SomeOverflow]
  | cons data rest ih =>
      intro index
      have hother : (∀ fields, data ≠ .dict fields) →
          (importRules libs sources index (data :: rest) = .error .overflowError ↔
            SomeOverflow libs sources (data :: rest)) := by
        intro hne
        refine iff_of_false ?_ ?_
        · cases data with
          | dict fields => exact absurd rfl (hne fields)
          | _ => simp [importRules]
        · rintro ⟨pre, fields, post, hsplit, hall, -⟩
          cases pre with
          | nil => exact hne fields (List.cons.inj hsplit).1
          | cons first pre =>
              obtain ⟨rfl, -⟩ := List.cons.inj hsplit
              obtain ⟨first, hfirst, -⟩ := hall data List.mem_cons_self
              exact hne first hfirst
      cases data with
      | dict fields =>
          simp only [importRules, bind_eq_error, importRule_eq_ok, importRule_overflow, ih]
          constructor
          · rintro (hoverflow | ⟨_, ⟨himportable, rfl⟩, ⟨pre, next, post, rfl, hall, hoverflow⟩ |
              ⟨_, -, hok⟩⟩)
            · exact ⟨[], fields, rest, rfl, by simp [AllImportable], hoverflow⟩
            · refine ⟨.dict fields :: pre, next, post, rfl, ?_, hoverflow⟩
              intro data hdata
              rcases List.mem_cons.mp hdata with rfl | hpre
              · exact ⟨fields, rfl, himportable⟩
              · exact hall data hpre
            · cases hok
          · rintro ⟨pre, next, post, hsplit, hall, hoverflow⟩
            cases pre with
            | nil =>
                cases hsplit
                exact .inl hoverflow
            | cons first pre =>
                obtain ⟨rfl, rfl⟩ := List.cons.inj hsplit
                obtain ⟨_, ⟨⟩, himportable⟩ := hall (.dict fields) List.mem_cons_self
                exact .inr ⟨_, ⟨himportable, rfl⟩, .inl ⟨pre, next, post, rfl,
                  fun data hdata => hall data (List.mem_cons_of_mem _ hdata), hoverflow⟩⟩
      | null => exact hother fun _ => nofun
      | bool => exact hother fun _ => nofun
      | int => exact hother fun _ => nofun
      | float => exact hother fun _ => nofun
      | str => exact hother fun _ => nofun
      | list => exact hother fun _ => nofun

/-- A rule that is imported is one that the form would have let through. -/
theorem Importable.valid (h : Importable libs sources fields) :
    (importedValues libs fields sources).Valid libs sources := by
  obtain ⟨texts, ⟨query, hquery, hqueryBounds⟩, ⟨maxRows, hmaxRows, hmaxRowsBounds⟩,
    ⟨window, hwindow, hpos⟩, hkey⟩ := h
  refine ⟨?_, ?_, texts.select, texts.crontab, ?_, ?_, texts.recipients, ?_⟩
  · show 1 ≤ importedInt libs fields "query_timeout_seconds" 30 ∧
      importedInt libs fields "query_timeout_seconds" 30 ≤ 600
    rwa [importedInt_eq hquery]
  · show 1 ≤ importedInt libs fields "max_rows" 500 ∧ importedInt libs fields "max_rows" 500 ≤ 5000
    rwa [importedInt_eq hmaxRows]
  · obtain ⟨source, hsource, hname⟩ := texts.dataSource
    have hsome : (findSourceByName sources
        (PyText.strip (optionalImportText libs fields "data_source_name"))).isSome := by
      rw [findSourceByName, List.find?_isSome]
      exact ⟨source, hsource, by simpa using hname⟩
    obtain ⟨found, hfound⟩ := Option.isSome_iff_exists.mp hsome
    have hid : (importedValues libs fields sources).dataSourceId = found.id := by
      simp only [importedValues, importedTexts, hfound]
    rw [hid]
    exact List.mem_map.mpr ⟨found, List.mem_of_find?_eq_some hfound, rfl⟩
  · intro hsummary
    obtain ⟨sendMode, hmode⟩ := Option.isSome_iff_exists.mp texts.sendMode
    have hvalue : (importedValues libs fields sources).sendMode = sendMode := by
      simp only [importedValues, importedTexts, hmode, Option.getD_some]
    rw [hvalue] at hsummary
    exact texts.summary (hmode.trans (congrArg some hsummary))
  · intro hsuppress
    refine ⟨?_, ?_⟩
    · show PyText.strip (PyText.strip _) ≠ []
      rw [PyText.strip_strip]
      exact hkey hsuppress
    · show 1 ≤ importedInt libs fields "suppression_window_hours" 24
      rwa [importedInt_eq hwindow]

end EarlyWarning
