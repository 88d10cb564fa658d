/-
# `RuleStore` — the handlers that write rules and data sources

`create_rule`, `update_rule`, `archive_rule` and `import_rules_json` of `app/routes.py`, and the
handlers of the data sources, on the tables `sqldatasource` and `alertrule`.  Each request is
handled to its end before the next one comes.  A transaction that raises writes nothing.

`stored_rules`: whatever the requests are, every stored rule is one that the executor can run.
-/
import EarlyWarning.RuleImport
import Mathlib.Data.List.Sort

namespace EarlyWarning.RuleStore

open Lib

/-! ## The tables -/

structure RuleDb where
  sources : List SqlDataSource
  rules : List AlertRule
deriving DecidableEq

inductive Outcome
  /-- status 303 -/
  | redirect (location : String)
  /-- the page with an error, and status 400 -/
  | page (error : String)
  /-- status 404 -/
  | notFound (detail : String)
  | raised (error : ServerError)
deriving DecidableEq

def Outcome.ofRefusal : Refusal → Outcome
  | .page error => .page error
  | .raised error => .raised error

/-- The answer, with the tables as the transaction leaves them. -/
def commit (db : RuleDb) (location : String) : Except ServerError RuleDb → Outcome × RuleDb
  | .ok written => (.redirect location, written)
  | .error error => (.raised error, db)

/-- A new object, before its attributes are set. -/
def newRule (id : Nat) (createdAt updatedAt : DateTime) : AlertRule where
  id
  name := ""
  dataSourceId := 0
  sqlText := ""
  cronExpression := ""
  recipients := ""
  subjectTemplate := ""
  bodyTemplate := ""
  createdAt
  updatedAt

/-- The foreign key of `alertrule.data_source_id` -/
def checkSource (db : RuleDb) (dataSourceId : Nat) : Except ServerError Unit :=
  if dataSourceId ∈ db.sources.map SqlDataSource.id then .ok () else .error .integrityError

/-- The INSERT of a rule, whose two times are `created_at` and `updated_at`. -/
def insertRule (db : RuleDb) (values : RuleValues) (times : DateTime × DateTime) :
    Except ServerError RuleDb := do
  let row ← values.store (newRule (nextId (db.rules.map AlertRule.id)) times.1 times.2)
  checkSource db row.dataSourceId
  .ok { db with rules := db.rules ++ [row] }

/-- The INSERT statements of one flush; the objects were built at these times. -/
def insertRules : RuleDb → List RuleValues → (Nat → DateTime × DateTime) →
    Except ServerError RuleDb
  | db, [], _ => .ok db
  | db, values :: rest, times => do
      let db ← insertRule db values (times 0)
      insertRules db rest fun i => times (i + 1)

/-- The UPDATE of the row of a rule. -/
def replaceRule (db : RuleDb) (row : AlertRule) : RuleDb :=
  { db with rules := db.rules.map fun rule => if rule.id = row.id then row else rule }

/-- `_get_active_rule_or_404` -/
def getActiveRule (db : RuleDb) (ruleId : Int) : Except Outcome AlertRule :=
  if IsInt64 ruleId then
    match db.rules.find? fun rule => rule.id = ruleId with
    | none => .error (.notFound "规则不存在")
    | some rule =>
        if rule.archivedAt.isSome then .error (.notFound "规则不存在") else .ok rule
  else .error (.raised .overflowError)

/-! ## The rules -/

variable {φ : Type} (libs : RuleLibraries φ)

/-- `create_rule`, of a new form or of one that was filled from another rule. -/
def createRule (db : RuleDb) (form : RuleForm) (times : DateTime × DateTime) : Outcome × RuleDb :=
  match validateRuleForm libs db.sources form with
  | .error refusal => (.ofRefusal refusal, db)
  | .ok validated => commit db "/rules" (insertRule db (form.values validated []) times)

/-- `update_rule`; the row that it loads is the current one. -/
def updateRule (db : RuleDb) (ruleId : Int) (form : RuleForm) (now : DateTime) : Outcome × RuleDb :=
  match getActiveRule db ruleId with
  | .error outcome => (outcome, db)
  | .ok rule =>
      match validateRuleForm libs db.sources form with
      | .error refusal => (.ofRefusal refusal, db)
      | .ok validated =>
          commit db "/rules" do
            let row ← (form.values validated (.ofString rule.notes)).store
              { rule with updatedAt := now }
            checkSource db row.dataSourceId
            .ok (replaceRule db row)

/-- `archive_rule` -/
def archiveRule (db : RuleDb) (ruleId : Int) (now : DateTime) : Outcome × RuleDb :=
  match getActiveRule db ruleId with
  | .error outcome => (outcome, db)
  | .ok rule =>
      (.redirect "/rules",
        replaceRule db { rule with enabled := false, archivedAt := some now, updatedAt := now })

/-- `MAX_RULE_IMPORT_BYTES` -/
def maxRuleImportBytes : Nat := 1048576

/-- What is wrong with an uploaded file, or its document. -/
inductive Upload (φ : Type)
  | payload (value : Json φ)
  | invalid (error : String)
  | tooDeep

/-- The bytes of a file as a document. -/
def readUpload (bytes : ByteArray) : Upload φ :=
  if bytes.size > maxRuleImportBytes then .invalid "导入文件不能超过 1 MiB"
  else
    match String.fromUTF8? bytes with
    | none => .invalid "导入文件必须是有效的 JSON"
    | some text =>
        match Json.loads libs.floats libs.nesting (.ofString text) with
        | .ok value => .payload value
        | .error .decodeError => .invalid "导入文件必须是有效的 JSON"
        | .error (.tooManyDigits digits) =>
            .invalid (s!"Exceeds the limit ({PyInt.maxStrDigits} digits) for integer string " ++
              s!"conversion: value has {digits} digits; use sys.set_int_max_str_digits() to " ++
              "increase the limit")
        | .error .recursionError => .tooDeep

/-- `import_rules_json` -/
def importRulesJson (db : RuleDb) (bytes : ByteArray) (times : Nat → DateTime × DateTime) :
    Outcome × RuleDb :=
  match readUpload libs bytes with
  | .invalid error => (.page error, db)
  | .tooDeep => (.raised .recursionError, db)
  | .payload payload =>
      match buildImportedRules libs db.sources payload with
      | .error (.valueError message) => (.page message, db)
      | .error .overflowError => (.raised .overflowError, db)
      | .ok rules =>
          commit db s!"/rules?imported={rules.length}" (insertRules db rules times)

/-! ## The data sources -/

structure DataSourceForm where
  name : PyText
  host : PyText
  port : PyText
  database : PyText
  username : PyText
  password : PyText
  /-- what the cipher makes of the password -/
  encryptedPassword : String
  enabled : Option PyText
  connectTimeoutSeconds : PyText
  odbcDriver : PyText
  serverOverride : PyText
  encrypt : PyText
  /-- a form of a data source that exists may leave it out -/
  trustServerCertificate : Option PyText
  extraParams : PyText
deriving DecidableEq

/-- The row with the attributes of the form. -/
def DataSourceForm.store (form : DataSourceForm) (values : Int × Int) (encryptedPassword : String)
    (id : Nat) (trustServerCertificate : PyText) : Except ServerError SqlDataSource := do
  let name ← storeText form.name
  let host ← storeText form.host
  let database ← storeText form.database
  let username ← storeText form.username
  let odbcDriver ← storeText form.odbcDriver
  let serverOverride ← storeText form.serverOverride
  let encrypt ← storeText form.encrypt
  let trustServerCertificate ← storeText trustServerCertificate
  let extraParams ← storeText form.extraParams
  .ok
    { id
      name
      host
      port := values.1
      database
      username
      encryptedPassword
      enabled := isCheckedText form.enabled
      connectTimeoutSeconds := values.2
      odbcDriver
      serverOverride
      encrypt
      trustServerCertificate
      extraParams }

/-- The first data source of a name. -/
def findByName (db : RuleDb) (name : PyText) : Except ServerError (Option SqlDataSource) := do
  let name ← storeText name
  .ok (db.sources.find? fun source => source.name = name)

/-- The unique constraint of `sqldatasource.name` -/
def checkName (others : List SqlDataSource) (name : String) : Except ServerError Unit :=
  if name ∈ others.map SqlDataSource.name then .error .integrityError else .ok ()

/-- `create_sql_server_settings` -/
def createSource (db : RuleDb) (form : DataSourceForm) : Outcome × RuleDb :=
  match parseSqlConnectionValues form.port form.connectTimeoutSeconds with
  | .error error => (.page error, db)
  | .ok values =>
      match findByName db form.name with
      | .error error => (.raised error, db)
      | .ok (some _) => (.page "数据源名称已存在", db)
      | .ok none =>
          commit db "/settings" do
            let _ ← storeText form.password
            let row ← form.store values form.encryptedPassword
              (nextId (db.sources.map SqlDataSource.id))
              (form.trustServerCertificate.getD (.ofString "no"))
            checkName db.sources row.name
            .ok { db with sources := db.sources ++ [row] }

/-- `update_sql_server_settings` -/
def updateSource (db : RuleDb) (sourceId : Int) (form : DataSourceForm) : Outcome × RuleDb :=
  match getSource db.sources sourceId with
  | .error error => (.raised error, db)
  | .ok none => (.notFound "数据源不存在", db)
  | .ok (some source) =>
      match parseSqlConnectionValues form.port form.connectTimeoutSeconds with
      | .error error => (.page error, db)
      | .ok values =>
          match findByName db form.name with
          | .error error => (.raised error, db)
          | .ok existing =>
              if (existing.map SqlDataSource.id).any (· ≠ source.id) then
                (.page "数据源名称已存在", db)
              else
                commit db "/settings" do
                  let _ ← storeText form.password
                  let row ← form.store values
                    (if form.password = [] then source.encryptedPassword
                      else form.encryptedPassword)
                    source.id
                    (form.trustServerCertificate.getD (.ofString source.trustServerCertificate))
                  checkName (db.sources.filter fun other => other.id ≠ source.id) row.name
                  .ok { db with
                    sources := db.sources.map fun other =>
                      if other.id = source.id then row else other }

/-- `delete_sql_server_settings` -/
def deleteSource (db : RuleDb) (sourceId : Int) : Outcome × RuleDb :=
  match getSource db.sources sourceId with
  | .error error => (.raised error, db)
  | .ok none => (.notFound "数据源不存在", db)
  | .ok (some source) =>
      let names := (db.rules.filter fun rule => rule.dataSourceId = source.id).map AlertRule.name
      if names ≠ [] then
        let ruleNames := PyStr.join "、" (names.insertionSort (· ≤ ·))
        (.page s!"数据源正在被规则引用：{ruleNames}", db)
      else
        (.redirect "/settings",
          { db with sources := db.sources.filter fun other => other.id ≠ source.id })

/-! ## Requests -/

inductive Request
  | createRule (form : RuleForm) (times : DateTime × DateTime)
  | updateRule (ruleId : Int) (form : RuleForm) (now : DateTime)
  | archiveRule (ruleId : Int) (now : DateTime)
  | importRules (bytes : ByteArray) (times : Nat → DateTime × DateTime)
  | createSource (form : DataSourceForm)
  | updateSource (sourceId : Int) (form : DataSourceForm)
  | deleteSource (sourceId : Int)

def handle (db : RuleDb) : Request → Outcome × RuleDb
  | .createRule form times => createRule libs db form times
  | .updateRule ruleId form now => updateRule libs db ruleId form now
  | .archiveRule ruleId now => archiveRule db ruleId now
  | .importRules bytes times => importRulesJson libs db bytes times
  | .createSource form => createSource db form
  | .updateSource sourceId form => updateSource db sourceId form
  | .deleteSource sourceId => deleteSource db sourceId

def emptyDb : RuleDb := ⟨[], []⟩

/-- The tables after these requests, from empty ones on. -/
def runAll (requests : List Request) : RuleDb :=
  requests.foldl (fun db request => (handle libs db request).2) emptyDb

/-! ## What is stored -/

/-- A rule that the executor can run. -/
structure RuleOk (libs : RuleLibraries φ) (sources : List SqlDataSource) (rule : AlertRule) :
    Prop where
  queryTimeoutSeconds : 1 ≤ rule.queryTimeoutSeconds ∧ rule.queryTimeoutSeconds ≤ 600
  maxRows : 1 ≤ rule.maxRows ∧ rule.maxRows ≤ 5000
  sqlText : validateSelectOnlySql libs (.ofString rule.sqlText) = .ok ()
  cronExpression : libs.fromCrontab (.ofString rule.cronExpression) = true
  dataSource : ∃ source ∈ sources, source.id = rule.dataSourceId
  summary : rule.sendMode = .summary → rule.dynamicRecipientField = ""
  recipients : parseRecipients rule.recipients ≠ [] ∨ rule.dynamicRecipientField ≠ ""
  suppression : rule.suppressDuplicates = true →
    PyStr.strip rule.suppressionKeyField ≠ "" ∧ 1 ≤ rule.suppressionWindowHours

variable {libs} {sources : List SqlDataSource} {db db' : RuleDb} {rule row : AlertRule}
  {values : RuleValues} {times : DateTime × DateTime} {location : String}

theorem ruleOk_of_valid (h : rule.values.Valid libs sources) : RuleOk libs sources rule where
  queryTimeoutSeconds := h.queryTimeoutSeconds
  maxRows := h.maxRows
  sqlText := h.sqlText
  cronExpression := h.cronExpression
  dataSource := List.mem_map.mp h.dataSource
  summary hsummary := PyText.ofString_eq_nil.mp (h.summary hsummary)
  recipients :=
    h.recipients.imp hasRecipientText_ofString.mp fun hne hnil =>
      hne (PyText.ofString_eq_nil.mpr hnil)
  suppression hsuppress := by
    obtain ⟨hkey, hwindow⟩ := h.suppression hsuppress
    refine ⟨fun hnil => hkey ?_, hwindow⟩
    show PyText.strip (.ofString rule.suppressionKeyField) = []
    rw [PyText.strip_ofString, hnil]
    rfl

/-- What every request keeps. -/
structure Inv (libs : RuleLibraries φ) (db : RuleDb) : Prop where
  valid : ∀ rule ∈ db.rules, rule.values.Valid libs db.sources
  trimmed : ∀ rule ∈ db.rules, rule.values.Trimmed
  window : ∀ rule ∈ db.rules, IsInt64 rule.suppressionWindowHours
  ruleIds : (db.rules.map AlertRule.id).Nodup
  sourceIds : (db.sources.map SqlDataSource.id).Nodup
  sourceNames : (db.sources.map SqlDataSource.name).Nodup

theorem emptyDb_inv : Inv libs emptyDb where
  valid _ h := by cases h
  trimmed _ h := by cases h
  window _ h := by cases h
  ruleIds := List.nodup_nil
  sourceIds := List.nodup_nil
  sourceNames := List.nodup_nil

theorem checkSource_eq_ok {id : Nat} :
    checkSource db id = .ok () ↔ id ∈ db.sources.map SqlDataSource.id := by
  simp only [checkSource]
  split
  case isTrue h => exact ⟨fun _ => h, fun _ => rfl⟩
  case isFalse h => exact ⟨nofun, fun hmem => absurd hmem h⟩

/-- The INSERT. -/
theorem insertRule_eq_ok : insertRule db values times = .ok db' ↔
    ∃ row, values.Stored (newRule (nextId (db.rules.map AlertRule.id)) times.1 times.2) row ∧
      values.dataSourceId ∈ db.sources.map SqlDataSource.id ∧
      db' = { db with rules := db.rules ++ [row] } := by
  have hid : ∀ row, values.Stored (newRule (nextId (db.rules.map AlertRule.id)) times.1 times.2)
      row → row.dataSourceId = values.dataSourceId := fun row hrow =>
    congrArg RuleValues.dataSourceId hrow.values
  simp only [insertRule, bind_eq_ok, RuleValues.store_eq_ok, Except.ok.injEq]
  constructor
  · rintro ⟨row, hrow, ⟨⟩, hsource, rfl⟩
    rw [hid row hrow, checkSource_eq_ok] at hsource
    exact ⟨row, hrow, hsource, rfl⟩
  · rintro ⟨row, hrow, hsource, rfl⟩
    rw [← hid row hrow, ← checkSource_eq_ok] at hsource
    exact ⟨row, hrow, (), hsource, rfl⟩

theorem Inv.insertRule (h : Inv libs db) (hvalid : values.Valid libs db.sources)
    (htrimmed : values.Trimmed) (hok : insertRule db values times = .ok db') : Inv libs db' := by
  obtain ⟨row, hrow, -, rfl⟩ := insertRule_eq_ok.mp hok
  have hcases : ∀ rule ∈ db.rules ++ [row], rule ∈ db.rules ∨ rule = row := by
    intro rule hrule
    rcases List.mem_append.mp hrule with hold | hnew
    · exact .inl hold
    · exact .inr (List.mem_singleton.mp hnew)
  refine ⟨?_, ?_, ?_, ?_, h.sourceIds, h.sourceNames⟩
  · intro rule hrule
    rcases hcases rule hrule with hold | rfl
    · exact h.valid rule hold
    · rw [hrow.values]
      exact hvalid
  · intro rule hrule
    rcases hcases rule hrule with hold | rfl
    · exact h.trimmed rule hold
    · rw [hrow.values]
      exact htrimmed
  · intro rule hrule
    rcases hcases rule hrule with hold | rfl
    · exact h.window rule hold
    · exact hrow.suppressionWindowHours
  · rw [List.map_append, List.nodup_append]
    refine ⟨h.ruleIds, List.nodup_singleton _, ?_⟩
    rintro id hid id' hid' rfl
    rw [List.map_singleton, List.mem_singleton, hrow.id] at hid'
    exact nextId_not_mem _ (hid' ▸ hid)

theorem insertRules_sources {rules : List RuleValues} :
    ∀ {db : RuleDb} {times : Nat → DateTime × DateTime},
    insertRules db rules times = .ok db' → db'.sources = db.sources ∧
      ∃ rows, db'.rules = db.rules ++ rows ∧ rows.map AlertRule.values = rules := by
  induction rules with
  | nil =>
      rintro db times ⟨⟩
      exact ⟨rfl, [], (List.append_nil _).symm, rfl⟩
  | cons values rules ih =>
      intro db times hok
      obtain ⟨mid, hmid, hrest⟩ := bind_eq_ok.mp hok
      obtain ⟨row, hrow, -, rfl⟩ := insertRule_eq_ok.mp hmid
      obtain ⟨hsources, rows, hrows, hvalues⟩ := ih hrest
      refine ⟨hsources, row :: rows, ?_, ?_⟩
      · rw [hrows, List.append_assoc]
        rfl
      · rw [List.map_cons, hvalues, hrow.values]

theorem Inv.insertRules {rules : List RuleValues} :
    ∀ {db : RuleDb} {times : Nat → DateTime × DateTime}, Inv libs db →
    (∀ values ∈ rules, values.Valid libs db.sources ∧ values.Trimmed) →
    insertRules db rules times = .ok db' → Inv libs db' := by
  induction rules with
  | nil =>
      rintro db times h - ⟨⟩
      exact h
  | cons values rules ih =>
      intro db times h hrules hok
      obtain ⟨mid, hmid, hrest⟩ := bind_eq_ok.mp hok
      obtain ⟨hvalid, htrimmed⟩ := hrules values List.mem_cons_self
      have hmidInv := h.insertRule hvalid htrimmed hmid
      obtain ⟨row, -, -, rfl⟩ := insertRule_eq_ok.mp hmid
      exact ih hmidInv (fun v hv => hrules v (List.mem_cons_of_mem _ hv)) hrest

/-- The UPDATE of a row. -/
theorem Inv.replaceRule (h : Inv libs db) (hvalid : row.values.Valid libs db.sources)
    (htrimmed : row.values.Trimmed) (hwindow : IsInt64 row.suppressionWindowHours) :
    Inv libs (replaceRule db row) := by
  have hcases : ∀ rule ∈ (RuleStore.replaceRule db row).rules, rule ∈ db.rules ∨ rule = row := by
    intro rule hrule
    obtain ⟨old, hold, rfl⟩ := List.mem_map.mp hrule
    split
    case isTrue => exact .inr rfl
    case isFalse => exact .inl hold
  have hids : (RuleStore.replaceRule db row).rules.map AlertRule.id = db.rules.map AlertRule.id := by
    simp only [RuleStore.replaceRule, List.map_map]
    refine List.map_congr_left fun rule _ => ?_
    simp only [Function.comp_apply]
    split
    case isTrue hsame => exact hsame.symm
    case isFalse => rfl
  refine ⟨?_, ?_, ?_, hids ▸ h.ruleIds, h.sourceIds, h.sourceNames⟩
  · intro rule hrule
    rcases hcases rule hrule with hold | rfl
    · exact h.valid rule hold
    · exact hvalid
  · intro rule hrule
    rcases hcases rule hrule with hold | rfl
    · exact h.trimmed rule hold
    · exact htrimmed
  · intro rule hrule
    rcases hcases rule hrule with hold | rfl
    · exact h.window rule hold
    · exact hwindow

theorem getActiveRule_eq_ok {ruleId : Int} (h : getActiveRule db ruleId = .ok rule) :
    rule ∈ db.rules ∧ rule.archivedAt = none := by
  simp only [getActiveRule] at h
  split at h
  case isTrue =>
    split at h
    case h_1 => cases h
    case h_2 found hfound =>
      split at h
      case isTrue => cases h
      case isFalse hactive =>
        cases h
        exact ⟨List.mem_of_find?_eq_some hfound, by simpa using hactive⟩
  case isFalse => cases h

/-- The answer of a transaction. -/
theorem commit_cases (db : RuleDb) (location : String) (result : Except ServerError RuleDb) :
    (∃ written, result = .ok written ∧ commit db location result = (.redirect location, written)) ∨
      ∃ error, commit db location result = (.raised error, db) := by
  cases result with
  | error error => exact .inr ⟨error, rfl⟩
  | ok written => exact .inl ⟨written, rfl, rfl⟩

theorem Inv.commit (h : Inv libs db) {result : Except ServerError RuleDb}
    (hok : ∀ written, result = .ok written → Inv libs written) :
    Inv libs (commit db location result).2 := by
  obtain ⟨written, hwritten, hcommit⟩ | ⟨error, hcommit⟩ := commit_cases db location result
  · rw [hcommit]
    exact hok written hwritten
  · rw [hcommit]
    exact h

theorem Inv.createRule (h : Inv libs db) (form : RuleForm) :
    Inv libs (createRule libs db form times).2 := by
  simp only [RuleStore.createRule]
  split
  case h_1 => exact h
  case h_2 validated hvalidated =>
    refine h.commit fun written hwritten => ?_
    exact h.insertRule (validateRuleForm_valid hvalidated []) (form.trimmed validated []) hwritten

theorem Inv.updateRule (h : Inv libs db) (ruleId : Int) (form : RuleForm) (now : DateTime) :
    Inv libs (updateRule libs db ruleId form now).2 := by
  simp only [RuleStore.updateRule]
  split
  case h_1 => exact h
  case h_2 rule hrule =>
    split
    case h_1 => exact h
    case h_2 validated hvalidated =>
      refine h.commit fun written hwritten => ?_
      obtain ⟨row, hrow, hrest⟩ := bind_eq_ok.mp hwritten
      obtain ⟨⟨⟩, -, hdone⟩ := bind_eq_ok.mp hrest
      have hstored := RuleValues.store_eq_ok.mp hrow
      cases hdone
      refine h.replaceRule ?_ ?_ hstored.suppressionWindowHours
      · rw [hstored.values]
        exact validateRuleForm_valid hvalidated _
      · rw [hstored.values]
        exact form.trimmed validated _

theorem Inv.archiveRule (h : Inv libs db) (ruleId : Int) (now : DateTime) :
    Inv libs (archiveRule db ruleId now).2 := by
  simp only [RuleStore.archiveRule]
  split
  case h_1 => exact h
  case h_2 rule hrule =>
    obtain ⟨hmem, -⟩ := getActiveRule_eq_ok hrule
    have hvalid := h.valid rule hmem
    exact h.replaceRule { hvalid with } ⟨(h.trimmed rule hmem).1, (h.trimmed rule hmem).2,
      (h.trimmed rule hmem).3⟩ (h.window rule hmem)

/-- The file of a text. -/
theorem readUpload_payload {text : String} {payload : Json φ}
    (hsize : text.utf8ByteSize ≤ maxRuleImportBytes)
    (hloads : Json.loads libs.floats libs.nesting (.ofString text) = .ok payload) :
    readUpload libs text.toUTF8 = .payload payload := by
  have hdecode : String.fromUTF8? text.toUTF8 = some text :=
    (dif_pos text.isValidUTF8).trans rfl
  have hshort : ¬ text.toUTF8.size > maxRuleImportBytes := Nat.not_lt.mpr hsize
  simp only [readUpload, if_neg hshort, hdecode, hloads]

/-- The rules that are built of a document. -/
theorem buildImportedRules_mem {payload : Json φ} {rules : List RuleValues}
    (h : buildImportedRules libs sources payload = .ok rules) :
    ∀ values ∈ rules, values.Valid libs sources ∧ values.Trimmed := by
  simp only [buildImportedRules] at h
  split at h
  case h_2 => cases h
  case h_1 =>
    split at h
    case isTrue => cases h
    case isFalse =>
      split at h
      case h_2 => cases h
      case h_1 =>
        split at h
        case isTrue => cases h
        case isFalse =>
          obtain ⟨hall, rfl⟩ := importRules_eq_ok.mp h
          intro values hvalues
          obtain ⟨data, hdata, rfl⟩ := List.mem_map.mp hvalues
          obtain ⟨fields, rfl, himportable⟩ := hall data hdata
          exact ⟨himportable.valid, PyText.strip_strip _, PyText.strip_strip _,
            PyText.strip_strip _⟩

theorem Inv.importRulesJson (h : Inv libs db) (bytes : ByteArray)
    (times : Nat → DateTime × DateTime) : Inv libs (importRulesJson libs db bytes times).2 := by
  simp only [RuleStore.importRulesJson]
  split
  case h_1 => exact h
  case h_2 => exact h
  case h_3 =>
    split
    case h_1 => exact h
    case h_2 => exact h
    case h_3 rules hrules =>
      refine h.commit fun written hwritten => ?_
      exact h.insertRules (buildImportedRules_mem hrules) hwritten

theorem checkName_eq_ok {others : List SqlDataSource} {name : String} :
    checkName others name = .ok () ↔ name ∉ others.map SqlDataSource.name := by
  simp only [checkName]
  split
  case isTrue h => exact ⟨nofun, fun hnot => absurd h hnot⟩
  case isFalse h => exact ⟨fun _ => h, fun _ => rfl⟩

theorem DataSourceForm.store_id {form : DataSourceForm} {values : Int × Int} {password : String}
    {id : Nat} {trust : PyText} {source : SqlDataSource}
    (h : form.store values password id trust = .ok source) : source.id = id := by
  simp only [DataSourceForm.store, bind_eq_ok] at h
  obtain ⟨_, -, _, -, _, -, _, -, _, -, _, -, _, -, _, -, _, -, hsource⟩ := h
  cases hsource
  rfl

theorem Inv.createSource (h : Inv libs db) (form : DataSourceForm) :
    Inv libs (createSource db form).2 := by
  simp only [RuleStore.createSource]
  split
  case h_1 => exact h
  case h_2 =>
    split
    case h_1 => exact h
    case h_2 => exact h
    case h_3 =>
      refine h.commit fun written hwritten => ?_
      obtain ⟨_, -, hrest⟩ := bind_eq_ok.mp hwritten
      obtain ⟨source, hsource, hrest⟩ := bind_eq_ok.mp hrest
      obtain ⟨⟨⟩, hname, hdone⟩ := bind_eq_ok.mp hrest
      have hid := DataSourceForm.store_id hsource
      cases hdone
      refine ⟨fun rule hrule => (h.valid rule hrule).mono ?_, h.trimmed, h.window, h.ruleIds,
        ?_, ?_⟩
      · rw [List.map_append]
        exact List.subset_append_left _ _
      · rw [List.map_append, List.nodup_append]
        refine ⟨h.sourceIds, List.nodup_singleton _, ?_⟩
        rintro id hold id' hnew rfl
        rw [List.map_singleton, List.mem_singleton, hid] at hnew
        exact nextId_not_mem _ (hnew ▸ hold)
      · rw [List.map_append, List.nodup_append]
        refine ⟨h.sourceNames, List.nodup_singleton _, ?_⟩
        rintro name hold name' hnew rfl
        rw [List.map_singleton, List.mem_singleton] at hnew
        exact checkName_eq_ok.mp hname (hnew ▸ hold)

/-- The UPDATE of a data source. -/
theorem Inv.replaceSource {source : SqlDataSource} (h : Inv libs db)
    (hname : source.name ∉ (db.sources.filter fun other => other.id ≠ source.id).map
      SqlDataSource.name) :
    Inv libs { db with
      sources := db.sources.map fun other => if other.id = source.id then source else other } := by
  have hids : (db.sources.map fun other => if other.id = source.id then source else other).map
      SqlDataSource.id = db.sources.map SqlDataSource.id := by
    rw [List.map_map]
    refine List.map_congr_left fun other _ => ?_
    simp only [Function.comp_apply]
    split
    case isTrue hsame => exact hsame.symm
    case isFalse => rfl
  have hother : ∀ other ∈ db.sources, other.id ≠ source.id → other.name ≠ source.name := by
    intro other hmem hne hsame
    refine hname (List.mem_map.mpr ⟨other, List.mem_filter.mpr ⟨hmem, ?_⟩, hsame⟩)
    simpa using hne
  refine ⟨fun rule hrule => (h.valid rule hrule).mono ?_, h.trimmed, h.window, h.ruleIds, ?_, ?_⟩
  · rw [hids]
    exact fun id hid => hid
  · rw [hids]
    exact h.sourceIds
  · rw [List.map_map]
    refine List.Nodup.map_on ?_ (List.Nodup.of_map _ h.sourceIds)
    intro x hx y hy hsame
    simp only [Function.comp_apply] at hsame
    split at hsame
    case isTrue hxid =>
      split at hsame
      case isTrue hyid => exact List.inj_on_of_nodup_map h.sourceIds hx hy (hxid.trans hyid.symm)
      case isFalse hyid => exact absurd hsame.symm (hother y hy hyid)
    case isFalse hxid =>
      split at hsame
      case isTrue => exact absurd hsame (hother x hx hxid)
      case isFalse => exact List.inj_on_of_nodup_map h.sourceNames hx hy hsame

theorem Inv.updateSource (h : Inv libs db) (sourceId : Int) (form : DataSourceForm) :
    Inv libs (updateSource db sourceId form).2 := by
  simp only [RuleStore.updateSource]
  split
  case h_1 => exact h
  case h_2 => exact h
  case h_3 source hsource =>
    split
    case h_1 => exact h
    case h_2 =>
      split
      case h_1 => exact h
      case h_2 =>
        split
        case isTrue => exact h
        case isFalse =>
          refine h.commit fun written hwritten => ?_
          obtain ⟨_, -, hrest⟩ := bind_eq_ok.mp hwritten
          obtain ⟨row, hrow, hrest⟩ := bind_eq_ok.mp hrest
          obtain ⟨⟨⟩, hname, hdone⟩ := bind_eq_ok.mp hrest
          have hid := DataSourceForm.store_id hrow
          cases hdone
          rw [← hid] at hname ⊢
          exact h.replaceSource (checkName_eq_ok.mp hname)

theorem Inv.deleteSource (h : Inv libs db) (sourceId : Int) :
    Inv libs (deleteSource db sourceId).2 := by
  simp only [RuleStore.deleteSource]
  split
  case h_1 => exact h
  case h_2 => exact h
  case h_3 source hsource =>
    split
    case isTrue => exact h
    case isFalse hunused =>
      have hfree : ∀ rule ∈ db.rules, rule.dataSourceId ≠ source.id := by
        intro rule hrule hsame
        refine hunused fun hnil => ?_
        have hmem : rule ∈ db.rules.filter fun rule => rule.dataSourceId = source.id :=
          List.mem_filter.mpr ⟨hrule, by simpa using hsame⟩
        rw [List.map_eq_nil_iff.mp hnil] at hmem
        cases hmem
      refine ⟨fun rule hrule => ?_, h.trimmed, h.window, h.ruleIds,
        h.sourceIds.sublist (List.filter_sublist.map _),
        h.sourceNames.sublist (List.filter_sublist.map _)⟩
      have hvalid := h.valid rule hrule
      refine { hvalid with dataSource := ?_ }
      obtain ⟨used, hused, hid⟩ := List.mem_map.mp hvalid.dataSource
      refine List.mem_map.mpr ⟨used, List.mem_filter.mpr ⟨hused, ?_⟩, hid⟩
      have hne : used.id ≠ source.id := fun hsame => hfree rule hrule (hid.symm.trans hsame)
      simpa using hne

/-- **One request.** -/
theorem Inv.handle (h : Inv libs db) (request : Request) : Inv libs (handle libs db request).2 := by
  cases request with
  | createRule form times => exact h.createRule form
  | updateRule ruleId form now => exact h.updateRule ruleId form now
  | archiveRule ruleId now => exact h.archiveRule ruleId now
  | importRules bytes times => exact h.importRulesJson bytes times
  | createSource form => exact h.createSource form
  | updateSource sourceId form => exact h.updateSource sourceId form
  | deleteSource sourceId => exact h.deleteSource sourceId

/-- **All requests.** -/
theorem runAll_inv (requests : List Request) : Inv libs (runAll libs requests) := by
  have hrun : ∀ requests : List Request, ∀ db, Inv libs db →
      Inv libs (requests.foldl (fun db request => (RuleStore.handle libs db request).2) db) := by
    intro requests
    induction requests with
    | nil => exact fun db h => h
    | cons request requests ih => exact fun db h => ih _ (h.handle request)
  exact hrun requests emptyDb emptyDb_inv

/-- The request is answered with an error. -/
def Outcome.Rejected : Outcome → Prop
  | .redirect _ => False
  | _ => True

/-- When it is, the tables are as they were. -/
def Unchanged (db : RuleDb) (result : Outcome × RuleDb) : Prop := result.1.Rejected → result.2 = db

theorem unchanged_same {outcome : Outcome} : Unchanged db (outcome, db) := fun _ => rfl

theorem unchanged_redirect : Unchanged db (.redirect location, db') := fun h => h.elim

theorem unchanged_commit {result : Except ServerError RuleDb} :
    Unchanged db (commit db location result) := by
  cases result with
  | error error => exact unchanged_same
  | ok written => exact unchanged_redirect

/-- A request that is rejected changes nothing. -/
theorem handle_unchanged (libs : RuleLibraries φ) (db : RuleDb) (request : Request) :
    Unchanged db (handle libs db request) := by
  cases request with
  | createRule form times =>
      simp only [handle, createRule]
      split
      case h_1 => exact unchanged_same
      case h_2 => exact unchanged_commit
  | updateRule ruleId form now =>
      simp only [handle, updateRule]
      split
      case h_1 => exact unchanged_same
      case h_2 =>
        split
        case h_1 => exact unchanged_same
        case h_2 => exact unchanged_commit
  | archiveRule ruleId now =>
      simp only [handle, archiveRule]
      split
      case h_1 => exact unchanged_same
      case h_2 => exact unchanged_redirect
  | importRules bytes times =>
      simp only [handle, importRulesJson]
      split
      case h_1 => exact unchanged_same
      case h_2 => exact unchanged_same
      case h_3 =>
        split
        case h_1 => exact unchanged_same
        case h_2 => exact unchanged_same
        case h_3 => exact unchanged_commit
  | createSource form =>
      simp only [handle, createSource]
      split
      case h_1 => exact unchanged_same
      case h_2 =>
        split
        case h_1 => exact unchanged_same
        case h_2 => exact unchanged_same
        case h_3 => exact unchanged_commit
  | updateSource sourceId form =>
      simp only [handle, updateSource]
      split
      case h_1 => exact unchanged_same
      case h_2 => exact unchanged_same
      case h_3 =>
        split
        case h_1 => exact unchanged_same
        case h_2 =>
          split
          case h_1 => exact unchanged_same
          case h_2 =>
            split
            case isTrue => exact unchanged_same
            case isFalse => exact unchanged_commit
  | deleteSource sourceId =>
      simp only [handle, deleteSource]
      split
      case h_1 => exact unchanged_same
      case h_2 => exact unchanged_same
      case h_3 =>
        split
        case isTrue => exact unchanged_same
        case isFalse => exact unchanged_redirect

/-- Every stored rule is one that the executor can run, after any requests; and a request that is
rejected then leaves the tables as they are. -/
theorem stored_rules (libs : RuleLibraries φ) (requests : List Request) :
    (∀ rule ∈ (runAll libs requests).rules, RuleOk libs (runAll libs requests).sources rule) ∧
      ∀ request, (handle libs (runAll libs requests) request).1.Rejected →
        (handle libs (runAll libs requests) request).2 = runAll libs requests := by
  refine ⟨fun rule hrule => ?_, fun request => handle_unchanged libs _ request⟩
  exact ruleOk_of_valid ((runAll_inv requests).valid rule hrule)

end EarlyWarning.RuleStore
