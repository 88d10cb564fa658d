/-
# `RuleExport` — the export of the rules, and what its import makes of it

`_rule_export_payload` and `export_rules_json` of `app/routes.py`.  The form and the import strip
different fields: the form keeps the name, the query, the cron expression and the recipients of a
rule as they came, and so does the form of a data source with its name, and the import strips
them.  So an export is not always a backup.

`export_import` says which rules come back as they were.
-/
import EarlyWarning.ImportAtomicity
import EarlyWarning.Lib.JsonRoundTrip

namespace EarlyWarning.RuleStore

open Lib

variable {φ : Type}

/-! ## The export -/

/-- The rules that are not archived, the newest first. -/
def exportedRules (db : RuleDb) : List AlertRule :=
  (db.rules.filter fun rule => rule.archivedAt.isNone).insertionSort
    fun rule rule' => rule'.createdAt ≤ rule.createdAt

/-- `data_sources.get(rule.data_source_id, "")` -/
def sourceName (sources : List SqlDataSource) (id : Nat) : String :=
  match sources.find? fun source => source.id = id with
  | some source => source.name
  | none => ""

def textField (key value : String) : PyText × Json φ := (.ofString key, .str (.ofString value))

/-- The object of a rule. -/
def exportFields (sources : List SqlDataSource) (rule : AlertRule) : Fields φ :=
  [textField "name" rule.name,
    textField "data_source_name" (sourceName sources rule.dataSourceId),
    textField "sql_text" rule.sqlText,
    textField "cron_expression" rule.cronExpression,
    textField "recipients" rule.recipients,
    textField "cc_recipients" rule.ccRecipients,
    textField "subject_template" rule.subjectTemplate,
    textField "body_template" rule.bodyTemplate,
    textField "send_mode" rule.sendMode.value,
    (.ofString "query_timeout_seconds", .int rule.queryTimeoutSeconds),
    (.ofString "max_rows", .int rule.maxRows),
    (.ofString "enabled", .bool rule.enabled),
    textField "notes" rule.notes,
    textField "dynamic_recipient_field" rule.dynamicRecipientField,
    textField "dynamic_cc_field" rule.dynamicCcField,
    (.ofString "suppress_duplicates", .bool rule.suppressDuplicates),
    textField "suppression_key_field" rule.suppressionKeyField,
    (.ofString "suppression_window_hours", .int rule.suppressionWindowHours)]

/-- The object of the document; `exportedAt` is the time as `isoformat` writes it. -/
def documentFields (db : RuleDb) (exportedAt : String) : Fields φ :=
  [(.ofString "version", .int 1),
    textField "exported_at" exportedAt,
    (.ofString "rules",
      .list ((exportedRules db).map fun rule => .dict (exportFields db.sources rule)))]

/-- `_rule_export_payload` -/
def ruleExportPayload (db : RuleDb) (exportedAt : String) : Json φ :=
  .dict (documentFields db exportedAt)

variable (libs : RuleLibraries φ)

/-- `export_rules_json`; `none` when the response cannot be encoded. -/
def exportRulesJson (db : RuleDb) (exportedAt : String) : Option ByteArray :=
  (PyText.encode? (Json.dumps libs.floats (ruleExportPayload db exportedAt))).map String.toUTF8

/-! ## What comes back -/

/-- The import of these bytes stores the exported rules once more, in their order. -/
def ComesBack (db : RuleDb) (bytes : ByteArray) (times : Nat → DateTime × DateTime) : Prop :=
  ∃ location rows, importRulesJson libs db bytes times =
      (.redirect location, { db with rules := db.rules ++ rows }) ∧
    rows.map AlertRule.values = (exportedRules db).map AlertRule.values

/-- A text that the import keeps: it is not blank, and there is no blank at its ends. -/
def Kept (s : String) : Prop := s ≠ "" ∧ PyStr.strip s = s

instance (s : String) : Decidable (Kept s) := inferInstanceAs (Decidable (_ ∧ _))

/-- A rule that the import keeps. -/
structure Restorable (sources : List SqlDataSource) (rule : AlertRule) : Prop where
  name : Kept rule.name
  dataSource : Kept (sourceName sources rule.dataSourceId)
  sqlText : Kept rule.sqlText
  cronExpression : Kept rule.cronExpression
  recipients : PyStr.strip rule.recipients = rule.recipients
  suppressionWindowHours : 1 ≤ rule.suppressionWindowHours

variable {libs} {db : RuleDb} {sources : List SqlDataSource} {rule : AlertRule}
  {exportedAt : String} {bytes : ByteArray} {times : Nat → DateTime × DateTime}

/-! ## The fields of an export -/

theorem get?_of_mem {fields : Fields φ} {key : String} {value : Json φ}
    (hkeys : (fields.map Prod.fst).Nodup) (h : (.ofString key, value) ∈ fields) :
    Json.get? fields key = some value := by
  cases hfind : fields.find? fun field => field.1 = PyText.ofString key with
  | none =>
      have hnot := List.find?_eq_none.mp hfind _ h
      simp at hnot
  | some field =>
      have hkey : field.1 = PyText.ofString key := by simpa using List.find?_some hfind
      have hsame : field = (.ofString key, value) :=
        List.inj_on_of_nodup_map hkeys (List.mem_of_find?_eq_some hfind) h hkey
      rw [Json.get?, hfind, hsame]
      rfl

theorem exportFields_keys (sources : List SqlDataSource) (rule : AlertRule) :
    ((exportFields sources rule : Fields φ).map Prod.fst).Nodup := by
  have hkeys : (exportFields sources rule : Fields φ).map Prod.fst =
      ["name", "data_source_name", "sql_text", "cron_expression", "recipients", "cc_recipients",
        "subject_template", "body_template", "send_mode", "query_timeout_seconds", "max_rows",
        "enabled", "notes", "dynamic_recipient_field", "dynamic_cc_field", "suppress_duplicates",
        "suppression_key_field", "suppression_window_hours"].map PyText.ofString := rfl
  rw [hkeys]
  exact List.Nodup.map (fun _ _ => PyText.ofString_injective) (by decide)

theorem exported_text {key s : String} (h : textField key s ∈ exportFields (φ := φ) sources rule) :
    optionalImportText libs (exportFields sources rule) key = .ofString s := by
  rw [optionalImportText, get?_of_mem (exportFields_keys sources rule) h]
  rfl

theorem exported_int {key : String} {n default : Int}
    (h : (.ofString key, Json.int n) ∈ exportFields (φ := φ) sources rule) :
    importInt libs (exportFields sources rule) key default = .ok n := by
  rw [importInt, get?_of_mem (exportFields_keys sources rule) h]
  rfl

theorem exported_flag {key : String} {b default : Bool}
    (h : (.ofString key, Json.bool b) ∈ exportFields (φ := φ) sources rule) :
    importFlag libs (exportFields sources rule) key default = b := by
  rw [importFlag, get?_of_mem (exportFields_keys sources rule) h]
  rfl

theorem exported_sendMode : importedSendMode libs (exportFields sources rule) =
    some rule.sendMode := by
  have htext : optionalImportText libs (exportFields sources rule) "send_mode" =
      .ofString rule.sendMode.value := exported_text (by simp [exportFields])
  rw [importedSendMode, htext]
  cases rule.sendMode with
  | summary => decide
  | perRow => decide

/-- What the import makes of an exported rule. -/
theorem importedValues_exportFields :
    importedValues libs (exportFields sources rule) sources =
      { rule.values with
        name := PyText.strip (.ofString rule.name)
        dataSourceId :=
          match findSourceByName sources
              (PyText.strip (.ofString (sourceName sources rule.dataSourceId))) with
          | some source => source.id
          | none => 0
        sqlText := PyText.strip (.ofString rule.sqlText)
        cronExpression := PyText.strip (.ofString rule.cronExpression)
        recipients := PyText.strip (.ofString rule.recipients)
        dynamicRecipientField := PyText.strip (.ofString rule.dynamicRecipientField)
        dynamicCcField := PyText.strip (.ofString rule.dynamicCcField)
        suppressionKeyField := PyText.strip (.ofString rule.suppressionKeyField) } := by
  have htext : ∀ key s, textField key s ∈ exportFields (φ := φ) sources rule →
      optionalImportText libs (exportFields sources rule) key = .ofString s :=
    fun key s h => exported_text h
  have hint : ∀ key n default, (.ofString key, Json.int n) ∈ exportFields (φ := φ) sources rule →
      importedInt libs (exportFields sources rule) key default = n :=
    fun key n default h => importedInt_eq (exported_int h)
  rw [importedValues, importedTexts, exported_sendMode,
    htext "name" rule.name (by simp [exportFields]),
    htext "data_source_name" (sourceName sources rule.dataSourceId) (by simp [exportFields]),
    htext "sql_text" rule.sqlText (by simp [exportFields]),
    htext "cron_expression" rule.cronExpression (by simp [exportFields]),
    htext "recipients" rule.recipients (by simp [exportFields]),
    htext "cc_recipients" rule.ccRecipients (by simp [exportFields]),
    htext "subject_template" rule.subjectTemplate (by simp [exportFields]),
    htext "body_template" rule.bodyTemplate (by simp [exportFields]),
    htext "notes" rule.notes (by simp [exportFields]),
    htext "dynamic_recipient_field" rule.dynamicRecipientField (by simp [exportFields]),
    htext "dynamic_cc_field" rule.dynamicCcField (by simp [exportFields]),
    htext "suppression_key_field" rule.suppressionKeyField (by simp [exportFields]),
    hint "query_timeout_seconds" rule.queryTimeoutSeconds 30 (by simp [exportFields]),
    hint "max_rows" rule.maxRows 500 (by simp [exportFields]),
    hint "suppression_window_hours" rule.suppressionWindowHours 24 (by simp [exportFields]),
    exported_flag (b := rule.enabled) (by simp [exportFields]),
    exported_flag (b := rule.suppressDuplicates) (by simp [exportFields])]
  rfl

/-! ## One rule -/

theorem strip_eq_self {s : String} :
    PyText.strip (.ofString s) = .ofString s ↔ PyStr.strip s = s := by
  rw [PyText.strip_ofString]
  exact ⟨fun h => PyText.ofString_injective h, congrArg PyText.ofString⟩

theorem Kept.strip {s : String} (h : Kept s) : PyText.strip (.ofString s) = .ofString s :=
  strip_eq_self.mpr h.2

theorem Kept.strip_ne {s : String} (h : Kept s) : PyText.strip (.ofString s) ≠ [] := by
  rw [h.strip]
  exact fun hnil => h.1 (PyText.ofString_eq_nil.mp hnil)

/-- A text that comes back and is not refused. -/
theorem kept_of_strip {s : String} (hne : PyText.strip (.ofString s) ≠ [])
    (h : PyText.strip (.ofString s) = .ofString s) : Kept s := by
  refine ⟨?_, strip_eq_self.mp h⟩
  rintro rfl
  exact hne rfl

theorem sourceName_eq {source : SqlDataSource} (hids : (sources.map SqlDataSource.id).Nodup)
    (h : source ∈ sources) : sourceName sources source.id = source.name := by
  have hsome : (sources.find? fun other => other.id = source.id).isSome := by
    rw [List.find?_isSome]
    exact ⟨source, h, by simp⟩
  obtain ⟨found, hfound⟩ := Option.isSome_iff_exists.mp hsome
  have hid : found.id = source.id := by simpa using List.find?_some hfound
  have hsame : found = source :=
    List.inj_on_of_nodup_map hids (List.mem_of_find?_eq_some hfound) h hid
  rw [sourceName, hfound, hsame]

theorem findSourceByName_eq {source : SqlDataSource}
    (hnames : (sources.map SqlDataSource.name).Nodup) (h : source ∈ sources) :
    findSourceByName sources (.ofString source.name) = some source := by
  have hsome : (findSourceByName sources (.ofString source.name)).isSome := by
    rw [findSourceByName, List.find?_isSome]
    exact ⟨source, h, by simp⟩
  obtain ⟨found, hfound⟩ := Option.isSome_iff_exists.mp hsome
  have hname : PyText.ofString found.name = PyText.ofString source.name := by
    simpa using List.find?_some hfound
  have hsame : found = source :=
    List.inj_on_of_nodup_map hnames (List.mem_of_find?_eq_some hfound) h
      (PyText.ofString_injective hname)
  rw [hfound, hsame]

/-- What is kept is imported as it was. -/
theorem importable_of_restorable (hvalid : rule.values.Valid libs sources)
    (htrimmed : rule.values.Trimmed) (hids : (sources.map SqlDataSource.id).Nodup)
    (h : Restorable sources rule) : Importable libs sources (exportFields sources rule) := by
  have htext : ∀ key s, textField key s ∈ exportFields (φ := φ) sources rule →
      optionalImportText libs (exportFields sources rule) key = .ofString s :=
    fun key s h => exported_text h
  obtain ⟨source, hsource, hid⟩ := List.mem_map.mp hvalid.dataSource
  have hname : sourceName sources rule.dataSourceId = source.name := by
    rw [← sourceName_eq hids hsource, hid]
    rfl
  have hdataSource := h.dataSource
  have hsourceText := htext "data_source_name" (sourceName sources rule.dataSourceId)
    (by simp [exportFields])
  have hsqlText := htext "sql_text" rule.sqlText (by simp [exportFields])
  have hcron := htext "cron_expression" rule.cronExpression (by simp [exportFields])
  have hrecipients := htext "recipients" rule.recipients (by simp [exportFields])
  have hdynamic := htext "dynamic_recipient_field" rule.dynamicRecipientField
    (by simp [exportFields])
  refine ⟨⟨?_, ?_, ⟨source, hsource, ?_⟩, ?_, ?_, ?_, ?_, ?_, ?_, ?_⟩, ?_, ?_, ?_, ?_⟩
  · rw [htext "name" rule.name (by simp [exportFields])]
    exact h.name.strip_ne
  · rw [hsourceText]
    exact hdataSource.strip_ne
  · rw [hsourceText, hdataSource.strip, hname]
  · rw [hsqlText]
    exact h.sqlText.strip_ne
  · rw [hsqlText, h.sqlText.strip]
    exact hvalid.sqlText
  · rw [hcron]
    exact h.cronExpression.strip_ne
  · rw [hcron, h.cronExpression.strip]
    exact hvalid.cronExpression
  · rw [exported_sendMode]
    rfl
  · rw [exported_sendMode, hdynamic]
    intro hsummary
    have hnil : PyText.ofString rule.dynamicRecipientField = [] :=
      hvalid.summary (Option.some.inj hsummary)
    rw [hnil]
    rfl
  · rw [hrecipients, strip_eq_self.mpr h.recipients, hdynamic]
    exact hvalid.recipients.imp_right fun hne hnil => hne (htrimmed.dynamicRecipientField ▸ hnil)
  · exact ⟨rule.queryTimeoutSeconds, exported_int (by simp [exportFields]),
      hvalid.queryTimeoutSeconds⟩
  · exact ⟨rule.maxRows, exported_int (by simp [exportFields]), hvalid.maxRows⟩
  · exact ⟨_, exported_int (by simp [exportFields]), h.suppressionWindowHours⟩
  · rw [exported_flag (b := rule.suppressDuplicates) (by simp [exportFields]),
      htext "suppression_key_field" rule.suppressionKeyField (by simp [exportFields])]
    exact fun hsuppress => (hvalid.suppression hsuppress).1

theorem importedValues_of_restorable (hvalid : rule.values.Valid libs sources)
    (htrimmed : rule.values.Trimmed) (hids : (sources.map SqlDataSource.id).Nodup)
    (hnames : (sources.map SqlDataSource.name).Nodup) (h : Restorable sources rule) :
    importedValues libs (exportFields sources rule) sources = rule.values := by
  obtain ⟨source, hsource, hid⟩ := List.mem_map.mp hvalid.dataSource
  have hname : sourceName sources rule.dataSourceId = source.name := by
    rw [← sourceName_eq hids hsource, hid]
    rfl
  have hdataSource : (match findSourceByName sources
      (PyText.strip (.ofString (sourceName sources rule.dataSourceId))) with
      | some source => source.id
      | none => 0) = rule.dataSourceId := by
    rw [h.dataSource.strip, hname, findSourceByName_eq hnames hsource]
    exact hid
  have hdynamic : PyText.strip (.ofString rule.dynamicRecipientField) =
      .ofString rule.dynamicRecipientField := htrimmed.dynamicRecipientField
  have hdynamicCc : PyText.strip (.ofString rule.dynamicCcField) = .ofString rule.dynamicCcField :=
    htrimmed.dynamicCcField
  have hkey : PyText.strip (.ofString rule.suppressionKeyField) =
      .ofString rule.suppressionKeyField := htrimmed.suppressionKeyField
  rw [importedValues_exportFields, hdataSource, h.name.strip, h.sqlText.strip,
    h.cronExpression.strip, strip_eq_self.mpr h.recipients, hdynamic, hdynamicCc, hkey]
  rfl

/-- What is imported as it was is kept. -/
theorem restorable_of_imported (hids : (sources.map SqlDataSource.id).Nodup)
    (h : Importable libs sources (exportFields sources rule))
    (hvalues : importedValues libs (exportFields sources rule) sources = rule.values) :
    Restorable sources rule := by
  have htext : ∀ key s, textField key s ∈ exportFields (φ := φ) sources rule →
      optionalImportText libs (exportFields sources rule) key = .ofString s :=
    fun key s h => exported_text h
  have hname := h.texts.name
  have hsourceName := h.texts.dataSourceName
  have hsqlText := h.texts.sqlText
  have hcron := h.texts.cronExpression
  rw [htext "name" rule.name (by simp [exportFields])] at hname
  rw [htext "data_source_name" (sourceName sources rule.dataSourceId) (by simp [exportFields])]
    at hsourceName
  rw [htext "sql_text" rule.sqlText (by simp [exportFields])] at hsqlText
  rw [htext "cron_expression" rule.cronExpression (by simp [exportFields])] at hcron
  obtain ⟨window, hwindow, hpos⟩ := h.suppressionWindowHours
  rw [exported_int (n := rule.suppressionWindowHours) (by simp [exportFields])] at hwindow
  obtain ⟨named, hnamed, hmatch⟩ := h.texts.dataSource
  rw [htext "data_source_name" (sourceName sources rule.dataSourceId) (by simp [exportFields])]
    at hmatch
  rw [importedValues_exportFields] at hvalues
  have hkept : PyText.strip (.ofString (sourceName sources rule.dataSourceId)) =
      .ofString (sourceName sources rule.dataSourceId) := by
    have hfound : (findSourceByName sources
        (PyText.strip (.ofString (sourceName sources rule.dataSourceId)))).isSome := by
      rw [findSourceByName, List.find?_isSome]
      exact ⟨named, hnamed, by simpa using hmatch⟩
    obtain ⟨found, hfound⟩ := Option.isSome_iff_exists.mp hfound
    have hid := congrArg RuleValues.dataSourceId hvalues
    simp only [hfound] at hid
    have hfoundName : PyText.ofString found.name =
        PyText.strip (.ofString (sourceName sources rule.dataSourceId)) := by
      simpa using List.find?_some hfound
    have hsame : sourceName sources rule.dataSourceId = found.name := by
      rw [← sourceName_eq hids (List.mem_of_find?_eq_some hfound), hid]
      rfl
    rw [← hfoundName, hsame]
  exact ⟨kept_of_strip hname (congrArg RuleValues.name hvalues), kept_of_strip hsourceName hkept,
    kept_of_strip hsqlText (congrArg RuleValues.sqlText hvalues),
    kept_of_strip hcron (congrArg RuleValues.cronExpression hvalues),
    strip_eq_self.mp (congrArg RuleValues.recipients hvalues), by rwa [Except.ok.inj hwindow]⟩

/-! ## The document -/

theorem exportedRules_mem (h : rule ∈ exportedRules db) : rule ∈ db.rules :=
  List.mem_of_mem_filter ((List.perm_insertionSort _ _).mem_iff.mp h)

/-- An integer of a column has few enough digits to be read. -/
theorem digits_of_isInt64 {n : Int} (h : IsInt64 n) : n.natAbs < 10 ^ PyInt.maxStrDigits := by
  have hbits : n.natAbs < 10 ^ 20 := by
    obtain ⟨hle, hlt⟩ := h
    omega
  exact Nat.lt_of_lt_of_le hbits (Nat.pow_le_pow_right (by decide) (by decide))

theorem plain_exportFields {depth : Nat} (hvalid : rule.values.Valid libs sources)
    (hwindow : IsInt64 rule.suppressionWindowHours) :
    ∀ field ∈ (exportFields sources rule : Fields φ), Json.Plain depth field.2 := by
  obtain ⟨hquery, hqueryLe⟩ : 1 ≤ rule.queryTimeoutSeconds ∧ rule.queryTimeoutSeconds ≤ 600 :=
    hvalid.queryTimeoutSeconds
  obtain ⟨hmaxRows, hmaxRowsLe⟩ : 1 ≤ rule.maxRows ∧ rule.maxRows ≤ 5000 := hvalid.maxRows
  have hqueryBits : IsInt64 rule.queryTimeoutSeconds := ⟨by omega, by omega⟩
  have hmaxRowsBits : IsInt64 rule.maxRows := ⟨by omega, by omega⟩
  simp only [exportFields, textField, List.forall_mem_cons]
  exact ⟨.str _, .str _, .str _, .str _, .str _, .str _, .str _, .str _, .str _,
    .int (digits_of_isInt64 hqueryBits), .int (digits_of_isInt64 hmaxRowsBits), .bool _, .str _,
    .str _, .str _, .bool _, .str _, .int (digits_of_isInt64 hwindow), fun _ h => by cases h⟩

theorem textual_exportFields :
    Json.Textual (.dict (exportFields sources rule) : Json φ) := by
  refine .dict ?_ ?_
  · simp only [exportFields, textField, List.forall_mem_cons]
    refine ⟨?_, ?_, ?_, ?_, ?_, ?_, ?_, ?_, ?_, ?_, ?_, ?_, ?_, ?_, ?_, ?_, ?_, ?_,
      fun _ h => by cases h⟩ <;> exact Json.isText_ofString _
  · simp only [exportFields, textField, List.forall_mem_cons]
    exact ⟨.str _, .str _, .str _, .str _, .str _, .str _, .str _, .str _, .str _, .int _, .int _,
      .bool _, .str _, .str _, .str _, .bool _, .str _, .int _, fun _ h => by cases h⟩

/-- The document of the export can be read, -/
theorem plain_payload {depth : Nat} (h : Inv libs db) :
    Json.Plain (depth + 3) (ruleExportPayload db exportedAt : Json φ) := by
  refine .dict ?_ ?_
  · have hkeys : (documentFields db exportedAt : Fields φ).map Prod.fst =
        ["version", "exported_at", "rules"].map PyText.ofString := rfl
    rw [hkeys]
    exact List.Nodup.map (fun _ _ => PyText.ofString_injective) (by decide)
  · simp only [documentFields, textField, List.forall_mem_cons]
    refine ⟨.int (digits_of_isInt64 (by decide)), .str _, .list ?_, fun _ h => by cases h⟩
    intro item hitem
    obtain ⟨rule, hrule, rfl⟩ := List.mem_map.mp hitem
    have hmem := exportedRules_mem hrule
    exact .dict (exportFields_keys _ _)
      (plain_exportFields (h.valid rule hmem) (h.window rule hmem))

/-- and written. -/
theorem textual_payload (db : RuleDb) (exportedAt : String) :
    Json.Textual (ruleExportPayload db exportedAt : Json φ) := by
  refine .dict ?_ ?_
  · simp only [documentFields, textField, List.forall_mem_cons]
    exact ⟨Json.isText_ofString _, Json.isText_ofString _, Json.isText_ofString _,
      fun _ h => by cases h⟩
  · simp only [documentFields, textField, List.forall_mem_cons]
    refine ⟨.int _, .str _, .list ?_, fun _ h => by cases h⟩
    intro item hitem
    obtain ⟨rule, -, rfl⟩ := List.mem_map.mp hitem
    exact textual_exportFields

/-- Its bytes are read as it, when they are short enough. -/
theorem readUpload_export (h : Inv libs db) (hnesting : 3 ≤ libs.nesting) (exportedAt : String) :
    ∃ bytes, exportRulesJson libs db exportedAt = some bytes ∧
      bytes.size ≤ 4 * (Json.dumps libs.floats (ruleExportPayload db exportedAt)).length ∧
      (bytes.size ≤ maxRuleImportBytes →
        readUpload libs bytes = .payload (ruleExportPayload db exportedAt)) := by
  obtain ⟨text, htext⟩ :=
    (Json.isText_dumps libs.floats (textual_payload db exportedAt)).eq_ofString
  refine ⟨text.toUTF8, ?_, PyText.utf8ByteSize_le htext, fun hsize =>
    readUpload_payload hsize ?_⟩
  · rw [exportRulesJson, htext, PyText.encode?_ofString]
    rfl
  · obtain ⟨depth, hdepth⟩ := Nat.exists_eq_add_of_le' hnesting
    rw [← htext, hdepth]
    exact Json.loads_dumps (plain_payload h)

/-- The rules of the document. -/
theorem payloadRules_export (hcount : (exportedRules db).length ≤ maxImportedRules) :
    payloadRules libs (ruleExportPayload db exportedAt) =
      some ((exportedRules db).map fun rule => .dict (exportFields db.sources rule)) := by
  have hversion : Json.get? (documentFields db exportedAt : Fields φ) "version" =
      some (.int 1) := rfl
  have hrules : Json.get? (documentFields db exportedAt : Fields φ) "rules" =
      some (.list ((exportedRules db).map fun rule => .dict (exportFields db.sources rule))) := rfl
  simp only [payloadRules, ruleExportPayload, hversion, hrules, List.length_map, if_pos hcount]
  rfl

/-- They are built when they are importable. -/
theorem buildImportedRules_export (hcount : (exportedRules db).length ≤ maxImportedRules)
    {imported : List RuleValues} :
    buildImportedRules libs db.sources (ruleExportPayload db exportedAt) = .ok imported ↔
      (∀ rule ∈ exportedRules db, Importable libs db.sources (exportFields db.sources rule)) ∧
        imported = (exportedRules db).map fun rule =>
          importedValues libs (exportFields db.sources rule) db.sources := by
  have hpayload : payloadRules libs (ruleExportPayload db exportedAt) =
      some ((exportedRules db).map fun rule => .dict (exportFields db.sources rule)) :=
    payloadRules_export hcount
  rcases buildImportedRules_cases libs db.sources (ruleExportPayload db exportedAt) with
    ⟨rules, hrules, hbuild⟩ | ⟨hnone, -⟩
  · rw [hpayload] at hrules
    cases hrules
    have hall : AllImportable libs db.sources
        ((exportedRules db).map fun rule => .dict (exportFields db.sources rule)) ↔
        ∀ rule ∈ exportedRules db, Importable libs db.sources (exportFields db.sources rule) := by
      rw [AllImportable, List.forall_mem_map]
      refine forall₂_congr fun rule _ => ⟨?_, fun h => ⟨_, rfl, h⟩⟩
      rintro ⟨_, ⟨⟩, h⟩
      exact h
    rw [hbuild, importRules_eq_ok, hall, importedRules, List.map_map]
    rfl
  · rw [hpayload] at hnone
    cases hnone

/-! ## The round trip -/

/-- There is room for a rule that is stored. -/
theorem storable_of_stored (hvalid : rule.values.Valid libs sources)
    (hwindow : IsInt64 rule.suppressionWindowHours) : rule.values.Storable := by
  obtain ⟨hquery, hqueryLe⟩ := hvalid.queryTimeoutSeconds
  obtain ⟨hmaxRows, hmaxRowsLe⟩ := hvalid.maxRows
  exact ⟨rule.texts_encode, ⟨by omega, by omega⟩, ⟨by omega, by omega⟩, hwindow⟩

theorem comesBack_of_restorable (h : Inv libs db)
    (hcount : (exportedRules db).length ≤ maxImportedRules)
    (hread : readUpload libs bytes = .payload (ruleExportPayload db exportedAt))
    (hrestorable : ∀ rule ∈ exportedRules db, Restorable db.sources rule) :
    ComesBack libs db bytes times := by
  have hvalid : ∀ rule ∈ exportedRules db, rule.values.Valid libs db.sources := fun rule hrule =>
    h.valid rule (exportedRules_mem hrule)
  have htrimmed : ∀ rule ∈ exportedRules db, rule.values.Trimmed := fun rule hrule =>
    h.trimmed rule (exportedRules_mem hrule)
  have hsame : (exportedRules db).map (fun rule =>
      importedValues libs (exportFields db.sources rule) db.sources) =
      (exportedRules db).map AlertRule.values :=
    List.map_congr_left fun rule hrule => importedValues_of_restorable (hvalid rule hrule)
      (htrimmed rule hrule) h.sourceIds h.sourceNames (hrestorable rule hrule)
  have hbuild : buildImportedRules libs db.sources (ruleExportPayload db exportedAt) =
      .ok ((exportedRules db).map AlertRule.values) := by
    refine (buildImportedRules_export hcount).mpr ⟨fun rule hrule => ?_, hsame.symm⟩
    exact importable_of_restorable (hvalid rule hrule) (htrimmed rule hrule) h.sourceIds
      (hrestorable rule hrule)
  have hroom : ∃ db', insertRules db ((exportedRules db).map AlertRule.values) times = .ok db' := by
    rw [insertRules_isOk db times]
    · intro values hvalues
      obtain ⟨rule, hrule, rfl⟩ := List.mem_map.mp hvalues
      exact storable_of_stored (hvalid rule hrule) (h.window rule (exportedRules_mem hrule))
    · intro values hvalues
      obtain ⟨rule, hrule, rfl⟩ := List.mem_map.mp hvalues
      exact (hvalid rule hrule).dataSource
  obtain ⟨db', hinsert⟩ := hroom
  obtain ⟨hsources, rows, hrows, hvalues⟩ := insertRules_sources hinsert
  refine ⟨s!"/rules?imported={((exportedRules db).map AlertRule.values).length}", rows, ?_,
    hvalues⟩
  have hdb : db' = { db with rules := db.rules ++ rows } := by
    cases db'
    cases hsources
    cases hrows
    rfl
  simp only [importRulesJson, hread, hbuild, hinsert, hdb]
  rfl

theorem restorable_of_comesBack (h : Inv libs db)
    (hcount : (exportedRules db).length ≤ maxImportedRules)
    (hread : readUpload libs bytes = .payload (ruleExportPayload db exportedAt))
    (hback : ComesBack libs db bytes times) :
    ∀ rule ∈ exportedRules db, Restorable db.sources rule := by
  obtain ⟨location, rows, hanswer, hvalues⟩ := hback
  simp only [importRulesJson, hread] at hanswer
  cases hbuild : buildImportedRules libs db.sources (ruleExportPayload db exportedAt) with
  | error error =>
      rw [hbuild] at hanswer
      cases error with
      | valueError message => cases hanswer
      | overflowError => cases hanswer
  | ok imported =>
      simp only [hbuild] at hanswer
      cases hinsert : insertRules db imported times with
      | error error =>
          rw [hinsert] at hanswer
          cases hanswer
      | ok db' =>
          obtain ⟨-, rows', hrows', hvalues'⟩ := insertRules_sources hinsert
          rw [hinsert] at hanswer
          have hdb : db' = { db with rules := db.rules ++ rows } := (Prod.mk.inj hanswer).2
          rw [hdb] at hrows'
          have himported : imported = (exportedRules db).map AlertRule.values := by
            rw [← hvalues', ← List.append_cancel_left hrows', hvalues]
          obtain ⟨hall, hbuilt⟩ := (buildImportedRules_export hcount).mp hbuild
          intro rule hrule
          exact restorable_of_imported h.sourceIds (hall rule hrule)
            (List.map_inj_left.mp (hbuilt.symm.trans himported) rule hrule)

/-- The rules of a system come back from their export exactly when each of them is one that
an import keeps. -/
theorem export_import (libs : RuleLibraries φ) (requests : List Request) (exportedAt : String)
    (times : Nat → DateTime × DateTime) (hnesting : 3 ≤ libs.nesting)
    (hcount : (exportedRules (runAll libs requests)).length ≤ maxImportedRules) :
    ∃ bytes, exportRulesJson libs (runAll libs requests) exportedAt = some bytes ∧
      (bytes.size ≤ maxRuleImportBytes →
        (ComesBack libs (runAll libs requests) bytes times ↔
          ∀ rule ∈ exportedRules (runAll libs requests),
            Restorable (runAll libs requests).sources rule)) := by
  have hinv : Inv libs (runAll libs requests) := runAll_inv requests
  obtain ⟨bytes, hexport, -, hread⟩ := readUpload_export hinv hnesting exportedAt
  refine ⟨bytes, hexport, fun hsize => ⟨?_, ?_⟩⟩
  · exact restorable_of_comesBack hinv hcount (hread hsize)
  · exact comesBack_of_restorable hinv hcount (hread hsize)

def sourceForm (name : String) : DataSourceForm where
  name := .ofString name
  host := .ofString "db"
  port := .ofString "1433"
  database := .ofString "app"
  username := .ofString "sa"
  password := .ofString "secret"
  encryptedPassword := "encrypted"
  enabled := none
  connectTimeoutSeconds := .ofString "5"
  odbcDriver := .ofString ""
  serverOverride := .ofString ""
  encrypt := .ofString "yes"
  trustServerCertificate := none
  extraParams := .ofString ""

def ruleForm : RuleForm where
  name := .ofString "orders"
  dataSourceId := .ofString "1"
  sqlText := .ofString "select 1"
  cronExpression := .ofString "* * * * *"
  recipients := .ofString "ops@example.com"
  ccRecipients := .ofString ""
  subjectTemplate := .ofString "subject"
  bodyTemplate := .ofString "body"
  sendMode := .ofString "summary"
  queryTimeoutSeconds := .ofString "30"
  maxRows := .ofString "500"
  enabled := none
  dynamicRecipientField := .ofString ""
  dynamicCcField := .ofString ""
  suppressDuplicates := none
  suppressionKeyField := .ofString ""
  suppressionWindowHours := 24

/-- A data source of this name, and a rule of it. -/
def oneRule (name : String) : List Request :=
  [.createSource (sourceForm name), .createRule ruleForm (0, 0)]

theorem export_import_main :
    ∃ bytes, exportRulesJson plainLibraries (runAll plainLibraries (oneRule "main")) "" =
        some bytes ∧
      (bytes.size ≤ maxRuleImportBytes →
        (ComesBack plainLibraries (runAll plainLibraries (oneRule "main")) bytes
            (fun _ => (0, 0)) ↔
          ∀ rule ∈ exportedRules (runAll plainLibraries (oneRule "main")),
            Restorable (runAll plainLibraries (oneRule "main")).sources rule)) :=
  export_import plainLibraries (oneRule "main") "" (fun _ => (0, 0)) (by decide)
    (by decide +kernel)

/-- The import looks for the data source `main`, and there is none. -/
theorem blank_at_the_end :
    ∃ bytes, exportRulesJson plainLibraries (runAll plainLibraries (oneRule "main ")) "" =
        some bytes ∧
      bytes.size ≤ maxRuleImportBytes ∧
      (exportedRules (runAll plainLibraries (oneRule "main "))).length = 1 ∧
      ¬ ComesBack plainLibraries (runAll plainLibraries (oneRule "main ")) bytes
        fun _ => (0, 0) := by
  have hinv : Inv plainLibraries (runAll plainLibraries (oneRule "main ")) := runAll_inv _
  have hone : (exportedRules (runAll plainLibraries (oneRule "main "))).length = 1 := by
    decide +kernel
  have hshort : 4 * (Json.dumps plainLibraries.floats
      (ruleExportPayload (runAll plainLibraries (oneRule "main ")) "")).length ≤
        maxRuleImportBytes := by
    decide +kernel
  have hblank : ¬ ∀ rule ∈ exportedRules (runAll plainLibraries (oneRule "main ")),
      Kept (sourceName (runAll plainLibraries (oneRule "main ")).sources rule.dataSourceId) := by
    decide +kernel
  obtain ⟨bytes, hexport, hlength, hread⟩ := readUpload_export hinv (by decide) ""
  have hsize : bytes.size ≤ maxRuleImportBytes := Nat.le_trans hlength hshort
  refine ⟨bytes, hexport, hsize, hone, fun hback => hblank fun rule hrule => ?_⟩
  exact (restorable_of_comesBack hinv (by rw [hone]; decide) (hread hsize) hback rule
    hrule).dataSource

end EarlyWarning.RuleStore
