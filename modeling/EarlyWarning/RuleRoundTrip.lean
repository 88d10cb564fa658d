/-
# `RuleRoundTrip` — a stored rule passes through its own form

`_rule_to_form` and `_rule_to_copy_form` of `app/routes.py`: the values that the pages show of a
rule, as the browser posts them back.  FastAPI makes the arguments of the handler of them; how it
reads one value is an argument (`FormBinding`).

A rule may have come from an imported file, which other functions have checked.
`forms_roundTrip`: the form of every stored rule that is not archived is accepted, and says what
the rule says.
-/
import EarlyWarning.RuleVersions

namespace EarlyWarning.RuleStore

open Lib EarlyWarning.RuleVersions

/-! ## The values of the form -/

/-- The fields of the form, in the order of `_rule_to_form`. -/
def formFields : List String :=
  ["name", "data_source_id", "sql_text", "cron_expression", "recipients", "cc_recipients",
    "subject_template", "body_template", "send_mode", "query_timeout_seconds", "max_rows",
    "enabled", "dynamic_recipient_field", "dynamic_cc_field", "suppress_duplicates",
    "suppression_key_field", "suppression_window_hours"]

theorem formFields_nodup : formFields.Nodup := by decide

/-- `"on" if checked else ""` -/
def checkBox (checked : Bool) : PyText := if checked then .ofString "on" else []

/-- `str(n)` -/
def strInt (n : Int) : PyText := .ofString (toString n)

/-- `_rule_to_form` -/
def ruleToForm (rule : AlertRule) : OrderedDict String PyText where
  entries :=
    [("name", .ofString rule.name),
      ("data_source_id", strInt rule.dataSourceId),
      ("sql_text", .ofString rule.sqlText),
      ("cron_expression", .ofString rule.cronExpression),
      ("recipients", .ofString rule.recipients),
      ("cc_recipients", .ofString rule.ccRecipients),
      ("subject_template", .ofString rule.subjectTemplate),
      ("body_template", .ofString rule.bodyTemplate),
      ("send_mode", .ofString rule.sendMode.value),
      ("query_timeout_seconds", strInt rule.queryTimeoutSeconds),
      ("max_rows", strInt rule.maxRows),
      ("enabled", checkBox rule.enabled),
      ("dynamic_recipient_field", .ofString rule.dynamicRecipientField),
      ("dynamic_cc_field", .ofString rule.dynamicCcField),
      ("suppress_duplicates", checkBox rule.suppressDuplicates),
      ("suppression_key_field", .ofString rule.suppressionKeyField),
      ("suppression_window_hours", strInt rule.suppressionWindowHours)]
  nodup := formFields_nodup

/-- `_rule_to_copy_form` -/
def ruleToCopyForm (rule : AlertRule) : OrderedDict String PyText :=
  ((ruleToForm rule).set "name" (.ofString (rule.name ++ " 副本"))).set "enabled" (checkBox true)

/-- The check boxes of the form -/
def checkBoxes : List String := ["enabled", "suppress_duplicates"]

/-- What is posted of the values: a check box that is not checked has none. -/
def posted (form : OrderedDict String PyText) : OrderedDict String PyText :=
  checkBoxes.foldl
    (fun form field => if form.get? field = some [] then form.erase field else form) form

/-! ## The arguments of the handlers -/

/-- How FastAPI makes an argument of a value that is posted, if one is. -/
structure FormBinding where
  /-- of `str = Form(default)` -/
  text : Option PyText → PyText → PyText
  /-- of `str | None = Form(None)` -/
  optional : Option PyText → Option PyText
  /-- of `int = Form(default)`; `none` for an answer with status 422 -/
  int? : Option PyText → Int → Option Int

/-- A field of the form, as the argument of its name. -/
def FormBinding.textField (fastapi : FormBinding) (posted : OrderedDict String PyText)
    (field default : String) : PyText :=
  fastapi.text (posted.get? field) (.ofString default)

/-- The arguments of `create_rule` and of `update_rule` -/
def FormBinding.ruleForm (fastapi : FormBinding) (posted : OrderedDict String PyText) :
    Option RuleForm :=
  let text := fastapi.textField posted
  (fastapi.int? (posted.get? "suppression_window_hours") 24).map fun suppressionWindowHours =>
    { name := text "name" ""
      dataSourceId := text "data_source_id" ""
      sqlText := text "sql_text" ""
      cronExpression := text "cron_expression" ""
      recipients := text "recipients" ""
      ccRecipients := text "cc_recipients" ""
      subjectTemplate := text "subject_template" ""
      bodyTemplate := text "body_template" ""
      sendMode := text "send_mode" SendMode.summary.value
      queryTimeoutSeconds := text "query_timeout_seconds" "30"
      maxRows := text "max_rows" "500"
      enabled := fastapi.optional (posted.get? "enabled")
      dynamicRecipientField := text "dynamic_recipient_field" ""
      dynamicCcField := text "dynamic_cc_field" ""
      suppressDuplicates := fastapi.optional (posted.get? "suppress_duplicates")
      suppressionKeyField := text "suppression_key_field" ""
      suppressionWindowHours }

/-- What is posted is the argument.  An empty value may count as one that is not posted. -/
structure FormBinding.Faithful (fastapi : FormBinding) : Prop where
  text : ∀ t default, t ≠ [] → fastapi.text (some t) default = t
  text_empty : fastapi.text (some []) [] = []
  optional : ∀ t, t ≠ [] → fastapi.optional (some t) = some t
  optional_none : fastapi.optional none = none
  int : ∀ n default, IsInt64 n → fastapi.int? (some (strInt n)) default = some n

/-- The arguments that the values of a rule become. -/
def formOf (rule : AlertRule) : RuleForm where
  name := .ofString rule.name
  dataSourceId := strInt rule.dataSourceId
  sqlText := .ofString rule.sqlText
  cronExpression := .ofString rule.cronExpression
  recipients := .ofString rule.recipients
  ccRecipients := .ofString rule.ccRecipients
  subjectTemplate := .ofString rule.subjectTemplate
  bodyTemplate := .ofString rule.bodyTemplate
  sendMode := .ofString rule.sendMode.value
  queryTimeoutSeconds := strInt rule.queryTimeoutSeconds
  maxRows := strInt rule.maxRows
  enabled := if rule.enabled then some (.ofString "on") else none
  dynamicRecipientField := .ofString rule.dynamicRecipientField
  dynamicCcField := .ofString rule.dynamicCcField
  suppressDuplicates := if rule.suppressDuplicates then some (.ofString "on") else none
  suppressionKeyField := .ofString rule.suppressionKeyField
  suppressionWindowHours := rule.suppressionWindowHours

variable {rule : AlertRule} {fastapi : FormBinding} {form : OrderedDict String PyText}
  {field : String} {t : PyText}

/-- Only an empty check box is left out. -/
theorem get?_posted : (posted form).get? field =
    if field ∈ checkBoxes then (form.get? field).filter fun t => t ≠ [] else form.get? field := by
  have hbox : ∀ (form : OrderedDict String PyText) (box : String),
      (if form.get? box = some [] then form.erase box else form).get? field =
        if field = box then (form.get? field).filter fun t => t ≠ [] else form.get? field := by
    intro form box
    rcases eq_or_ne field box with rfl | hne
    · rw [if_pos rfl]
      split
      case isTrue hempty =>
        rw [OrderedDict.get?_erase_self, hempty]
        rfl
      case isFalse hvalue =>
        cases hget : form.get? field with
        | none => rfl
        | some t =>
            rw [hget, Option.some.injEq] at hvalue
            simp [Option.filter, hvalue]
    · rw [if_neg hne]
      split
      case isTrue => exact OrderedDict.get?_erase_ne hne
      case isFalse => rfl
  simp only [posted, checkBoxes, List.foldl_cons, List.foldl_nil, hbox, List.mem_cons,
    List.not_mem_nil, or_false]
  rcases eq_or_ne field "enabled" with rfl | hne
  · simp
  · simp [hne]

theorem FormBinding.Faithful.text_ofString (h : fastapi.Faithful) (s default : String)
    (hdefault : s = "" → default = "") :
    fastapi.text (some (.ofString s)) (.ofString default) = .ofString s := by
  rcases eq_or_ne s "" with rfl | hne
  · rw [hdefault rfl]
    exact h.text_empty
  · exact h.text _ _ fun hnil => hne (PyText.ofString_eq_nil.mp hnil)

theorem FormBinding.Faithful.optional_checkBox (h : fastapi.Faithful) (checked : Bool) :
    fastapi.optional ((some (checkBox checked)).filter fun t => t ≠ []) =
      if checked then some (.ofString "on") else none := by
  cases checked with
  | false => exact h.optional_none
  | true => exact h.optional _ (by decide)

theorem toString_ne_empty (n : Int) : toString n ≠ "" := by
  intro hempty
  have hlist := congrArg String.toList hempty
  cases n with
  | ofNat n =>
      rw [PyInt.toList_ofNat] at hlist
      exact Nat.toDigits_ne_nil hlist
  | negSucc n =>
      rw [PyInt.toList_negSucc] at hlist
      cases hlist

theorem value_ne_empty (sendMode : SendMode) : sendMode.value ≠ "" := by
  cases sendMode with
  | summary => decide
  | perRow => decide

/-- The values of a rule are read as they are shown. -/
theorem ruleForm_posted (h : fastapi.Faithful) (hwindow : IsInt64 rule.suppressionWindowHours) :
    fastapi.ruleForm (posted (ruleToForm rule)) = some (formOf rule) := by
  have htext : ∀ field default s, field ∉ checkBoxes →
      (ruleToForm rule).get? field = some (.ofString s) → (s = "" → default = "") →
      fastapi.textField (posted (ruleToForm rule)) field default = .ofString s := by
    intro field default s hfield hget hdefault
    rw [FormBinding.textField, get?_posted, if_neg hfield, hget]
    exact h.text_ofString s default hdefault
  have hblank : ∀ field s, field ∉ checkBoxes →
      (ruleToForm rule).get? field = some (.ofString s) →
      fastapi.textField (posted (ruleToForm rule)) field "" = .ofString s :=
    fun field s hfield hget => htext field "" s hfield hget fun _ => rfl
  have hint : ∀ field default n, field ∉ checkBoxes →
      (ruleToForm rule).get? field = some (strInt n) →
      fastapi.textField (posted (ruleToForm rule)) field default = strInt n :=
    fun field default n hfield hget =>
      htext field default _ hfield hget fun hempty => absurd hempty (toString_ne_empty n)
  have hmode : fastapi.textField (posted (ruleToForm rule)) "send_mode" SendMode.summary.value =
      .ofString rule.sendMode.value :=
    htext _ _ _ (by decide) rfl fun hempty => absurd hempty (value_ne_empty _)
  have hwindow' : fastapi.int? ((posted (ruleToForm rule)).get? "suppression_window_hours") 24 =
      some rule.suppressionWindowHours := by
    rw [get?_posted, if_neg (by decide)]
    exact h.int _ _ hwindow
  have henabled : fastapi.optional ((posted (ruleToForm rule)).get? "enabled") =
      if rule.enabled then some (.ofString "on") else none := by
    rw [get?_posted, if_pos (by decide)]
    exact h.optional_checkBox rule.enabled
  have hsuppress : fastapi.optional ((posted (ruleToForm rule)).get? "suppress_duplicates") =
      if rule.suppressDuplicates then some (.ofString "on") else none := by
    rw [get?_posted, if_pos (by decide)]
    exact h.optional_checkBox rule.suppressDuplicates
  rw [FormBinding.ruleForm, hwindow', Option.map_some, henabled, hsuppress, hmode,
    hblank "name" _ (by decide) rfl, hint "data_source_id" _ _ (by decide) rfl,
    hblank "sql_text" _ (by decide) rfl, hblank "cron_expression" _ (by decide) rfl,
    hblank "recipients" _ (by decide) rfl, hblank "cc_recipients" _ (by decide) rfl,
    hblank "subject_template" _ (by decide) rfl, hblank "body_template" _ (by decide) rfl,
    hint "query_timeout_seconds" _ _ (by decide) rfl, hint "max_rows" _ _ (by decide) rfl,
    hblank "dynamic_recipient_field" _ (by decide) rfl,
    hblank "dynamic_cc_field" _ (by decide) rfl,
    hblank "suppression_key_field" _ (by decide) rfl]
  rfl

/-- `_rule_to_copy_form` shows a rule that differs in two fields. -/
def copied (rule : AlertRule) : AlertRule :=
  { rule with name := rule.name ++ " 副本", enabled := true }

theorem ruleToCopyForm_eq (rule : AlertRule) : ruleToCopyForm rule = ruleToForm (copied rule) := by
  exact OrderedDict.ext rfl

/-! ## The checks of the form -/

variable {φ : Type} {libs : RuleLibraries φ} {db : RuleDb} {sources : List SqlDataSource}
  {label : String}
  {minimum maximum n : Int}

theorem int?_strInt (h : IsInt64 n) : PyText.int? (strInt n) = some n := by
  rw [PyText.int?, strInt, PyText.encode?_ofString, Option.bind_some]
  exact PyInt.int?_toString (digits_of_isInt64 h)

theorem parseBoundedInt_strInt (hbits : IsInt64 n) (h : minimum ≤ n ∧ n ≤ maximum) :
    parseBoundedInt (strInt n) label minimum maximum = .ok n := by
  simp only [parseBoundedInt, int?_strInt hbits, validateBoundedInt_eq_none.mpr h]

theorem sendMode?_value (sendMode : SendMode) :
    sendMode? (.ofString sendMode.value) = some sendMode := by
  cases sendMode with
  | summary => rfl
  | perRow => decide

theorem isCheckedText_checkBox (checked : Bool) :
    isCheckedText (if checked then some (.ofString "on") else none) = checked := by
  cases checked with
  | false => rfl
  | true => decide

theorem validateSource_of_getSource {source : SqlDataSource} (hint : PyText.int? t = some n)
    (hget : getSource sources n = .ok (some source)) :
    validateSource sources t = .ok source.id := by
  simp only [validateSource, hint, hget]

/-- A rule names a data source that is there. -/
theorem validateSource_strInt {id : Nat} (hbits : IsInt64 id)
    (h : id ∈ sources.map SqlDataSource.id) : validateSource sources (strInt id) = .ok id := by
  have hfind : ∃ source, sources.find? (fun source => (source.id : Int) = id) = some source := by
    obtain ⟨source, hsource, hid⟩ := List.mem_map.mp h
    exact Option.isSome_iff_exists.mp
      (List.find?_isSome.mpr ⟨source, hsource, by simp [hid]⟩)
  obtain ⟨source, hsource⟩ := hfind
  have hid : (source.id : Int) = id := by
    simpa only [decide_eq_true_eq] using List.find?_some hsource
  have hget : getSource sources id = .ok (some source) := by rw [getSource, if_pos hbits, hsource]
  rw [validateSource_of_getSource (int?_strInt hbits) hget, Int.ofNat_inj.mp hid]

/-- What the checks of the form read in it. -/
def validatedOf (rule : AlertRule) : ValidatedForm where
  sourceId := rule.dataSourceId
  sendMode := rule.sendMode
  queryTimeoutSeconds := rule.queryTimeoutSeconds
  maxRows := rule.maxRows

theorem isInt64_of_bounds (h : 1 ≤ n ∧ n ≤ 5000) : IsInt64 n := ⟨by omega, by omega⟩

/-- The form of a valid rule passes every check. -/
theorem validateRuleForm_formOf (hvalid : rule.values.Valid libs sources)
    (htrimmed : rule.values.Trimmed) (hbits : IsInt64 rule.dataSourceId) :
    validateRuleForm libs sources (formOf rule) = .ok (validatedOf rule) := by
  have hlimits : parseRuleLimits (formOf rule).queryTimeoutSeconds (formOf rule).maxRows =
      .ok (rule.queryTimeoutSeconds, rule.maxRows) := by
    have hquery : 1 ≤ rule.queryTimeoutSeconds ∧ rule.queryTimeoutSeconds ≤ 600 :=
      hvalid.queryTimeoutSeconds
    have hrows : 1 ≤ rule.maxRows ∧ rule.maxRows ≤ 5000 := hvalid.maxRows
    have hqueryBits := isInt64_of_bounds ⟨hquery.1, hquery.2.trans (by decide)⟩
    simp only [parseRuleLimits, parseBoundedPair, formOf, parseBoundedInt_strInt hqueryBits hquery,
      parseBoundedInt_strInt (isInt64_of_bounds hrows) hrows]
  have hquery : validateQuery libs (formOf rule) = .ok rule.sendMode := by
    have hsql : validateSelectOnlySql libs (formOf rule).sqlText = .ok () := hvalid.sqlText
    have hmode : sendMode? (formOf rule).sendMode = some rule.sendMode := sendMode?_value _
    simp only [validateQuery, hsql, hmode]
  have hstrip : PyText.strip (formOf rule).dynamicRecipientField =
      (formOf rule).dynamicRecipientField := htrimmed.dynamicRecipientField
  have hdynamic : ¬ (PyText.strip (formOf rule).dynamicRecipientField ≠ [] ∧
      rule.sendMode ≠ .perRow) := by
    rintro ⟨hfield, hmode⟩
    rw [hstrip] at hfield
    cases hsend : rule.sendMode with
    | perRow => exact hmode hsend
    | summary => exact hfield (hvalid.summary hsend)
  have hrecipients : ¬ (hasRecipientText (formOf rule).recipients = false ∧
      PyText.strip (formOf rule).dynamicRecipientField = []) := by
    rintro ⟨hnone, hfield⟩
    rw [hstrip] at hfield
    rcases hvalid.recipients with htext | hdynamic
    · exact absurd (htext.symm.trans hnone) (by decide)
    · exact hdynamic hfield
  have hcron : ¬ libs.fromCrontab (formOf rule).cronExpression = false := by
    rw [show libs.fromCrontab (formOf rule).cronExpression = true from hvalid.cronExpression]
    decide
  have hsource : validateSource sources (formOf rule).dataSourceId = .ok rule.dataSourceId :=
    validateSource_strInt hbits hvalid.dataSource
  have hsuppression : suppressionError (formOf rule) = none := by
    have hchecked : isCheckedText (formOf rule).suppressDuplicates = rule.suppressDuplicates :=
      isCheckedText_checkBox _
    rw [suppressionError, hchecked]
    cases hsuppress : rule.suppressDuplicates with
    | false => rfl
    | true =>
        obtain ⟨hkey, hwindow⟩ := hvalid.suppression hsuppress
        replace hkey : PyText.strip (formOf rule).suppressionKeyField ≠ [] := hkey
        have hpositive : ¬ (formOf rule).suppressionWindowHours ≤ 0 := Int.not_le.mpr hwindow
        rw [if_pos rfl, if_neg hkey, if_neg hpositive]
  simp only [validateRuleForm, hlimits, hquery, if_neg hdynamic, if_neg hrecipients, if_neg hcron,
    hsource, hsuppression, validatedOf]

/-- The attributes that the form sets are those of the rule. -/
theorem values_formOf (htrimmed : rule.values.Trimmed) (notes : PyText) :
    (formOf rule).values (validatedOf rule) notes = { rule.values with notes } := by
  have hdynamic : PyText.strip (formOf rule).dynamicRecipientField =
      .ofString rule.dynamicRecipientField := htrimmed.dynamicRecipientField
  have hdynamicCc : PyText.strip (formOf rule).dynamicCcField =
      .ofString rule.dynamicCcField := htrimmed.dynamicCcField
  have hkey : PyText.strip (formOf rule).suppressionKeyField =
      .ofString rule.suppressionKeyField := htrimmed.suppressionKeyField
  have henabled : isCheckedText (formOf rule).enabled = rule.enabled := isCheckedText_checkBox _
  have hsuppress : isCheckedText (formOf rule).suppressDuplicates = rule.suppressDuplicates :=
    isCheckedText_checkBox _
  rw [RuleForm.values, hdynamic, hdynamicCc, hkey, henabled, hsuppress]
  rfl

/-! ## The round trips -/

/-- The ids are such as SQLite gives its rows. -/
structure RowIds (db : RuleDb) : Prop where
  rules : ∀ rule ∈ db.rules, IsInt64 rule.id
  sources : ∀ source ∈ db.sources, IsInt64 source.id

theorem RowIds.dataSourceId (h : RowIds db) (hvalid : rule.values.Valid libs db.sources) :
    IsInt64 rule.dataSourceId := by
  obtain ⟨source, hsource, hid⟩ := List.mem_map.mp hvalid.dataSource
  have hsame : source.id = rule.dataSourceId := hid
  exact hsame ▸ h.sources source hsource

theorem getActiveRule_of_mem (hids : (db.rules.map AlertRule.id).Nodup) (hbits : IsInt64 rule.id)
    (hrule : rule ∈ db.rules) (hactive : rule.archivedAt = none) :
    getActiveRule db rule.id = .ok rule := by
  have hfind : db.rules.find? (fun other => (other.id : Int) = rule.id) = some rule := by
    cases hother : db.rules.find? (fun other => (other.id : Int) = rule.id) with
    | none => simpa using List.find?_eq_none.mp hother rule hrule
    | some other =>
        have hid : (other.id : Int) = rule.id := by
          simpa only [decide_eq_true_eq] using List.find?_some hother
        rw [List.inj_on_of_nodup_map hids (List.mem_of_find?_eq_some hother) hrule
          (Int.ofNat_inj.mp hid)]
  simp only [getActiveRule, if_pos hbits, hfind, hactive, Option.isSome_none]
  rfl

/-- The form of the rule is accepted, and leaves the rule as it is but for the time of the edit;
the version that it adds is the rule before the edit. -/
structure EditRoundTrip (libs : RuleLibraries φ) (db : RuleDb) (rule : AlertRule)
    (form : RuleForm) : Prop where
  saved : ∀ now, updateRule libs db rule.id form now =
    (.redirect "/rules", replaceRule db { rule with updatedAt := now })
  versioned : ∀ (requests : Nat → RuleVersions.Request) (s : State Nat) (edit : Edit Nat),
    (requests edit.request).form = form → s.rule = rule → s.phase edit.request = .idle →
      ∃ t version, fire (step libs db.sources requests) s edit.labels = some t ∧
        Saved t edit.request ∧ t.rule = { rule with updatedAt := edit.updatedAt } ∧
        t.versions = s.versions ++ [version] ∧ version.snapshot = ruleSnapshot rule

/-- The form of the copy is accepted, and stores a rule with the attributes of this one but for
its name, its switch and its notes, which are not in the form. -/
def CopyRoundTrip (libs : RuleLibraries φ) (db : RuleDb) (rule : AlertRule) (form : RuleForm) :
    Prop :=
  ∀ times, ∃ row, createRule libs db form times =
      (.redirect "/rules", { db with rules := db.rules ++ [row] }) ∧
    row.values = { rule.values with
      name := .ofString (rule.name ++ " 副本")
      enabled := true
      notes := [] }

theorem assign_formOf (h : Inv libs db) (hrule : rule ∈ db.rules) (now : DateTime) :
    assign rule (formOf rule) (validatedOf rule) now = .ok { rule with updatedAt := now } := by
  have hstorable := storable_of_stored (h.valid rule hrule) (h.window rule hrule)
  rw [assign, values_formOf (h.trimmed rule hrule), RuleValues.store_eq_ok]
  exact ⟨rfl, hstorable.queryTimeoutSeconds, hstorable.maxRows, hstorable.suppressionWindowHours,
    rfl, rfl, rfl, rfl⟩

/-- An edit that is accepted. -/
theorem updateRule_of_assign {ruleId : Int} {form : RuleForm} {validated : ValidatedForm}
    {new : AlertRule} {now : DateTime} (hget : getActiveRule db ruleId = .ok rule)
    (hvalidated : validateRuleForm libs db.sources form = .ok validated)
    (hassign : assign rule form validated now = .ok new)
    (hsource : checkSource db new.dataSourceId = .ok ()) :
    updateRule libs db ruleId form now = (.redirect "/rules", replaceRule db new) := by
  rw [assign] at hassign
  simp only [updateRule, hget, hvalidated, hassign, bind, Except.bind, hsource, commit]

/-- A new rule that is accepted. -/
theorem createRule_of_insertRule {form : RuleForm} {validated : ValidatedForm} {db' : RuleDb}
    {times : DateTime × DateTime} (hvalidated : validateRuleForm libs db.sources form = .ok validated)
    (hinsert : insertRule db (form.values validated []) times = .ok db') :
    createRule libs db form times = (.redirect "/rules", db') := by
  simp only [createRule, hvalidated, hinsert, commit]

theorem editRoundTrip (h : Inv libs db) (hbits : RowIds db) (hrule : rule ∈ db.rules)
    (hactive : rule.archivedAt = none) : EditRoundTrip libs db rule (formOf rule) := by
  have hvalid := h.valid rule hrule
  have hvalidated := validateRuleForm_formOf hvalid (h.trimmed rule hrule)
    (hbits.dataSourceId hvalid)
  refine ⟨fun now => ?_, fun requests s edit hform hs hidle => ?_⟩
  · have hget := getActiveRule_of_mem h.ruleIds (hbits.rules rule hrule) hrule hactive
    exact updateRule_of_assign hget hvalidated (assign_formOf h hrule now)
      (checkSource_eq_ok.mpr hvalid.dataSource)
  · subst hs
    rw [← hform] at hvalidated
    have hassign := assign_formOf h hrule edit.updatedAt
    rw [← hform] at hassign
    obtain ⟨t, hfire, hsaved, htrule, hversions, -⟩ :=
      fire_labels edit hidle hactive hvalidated hassign
    exact ⟨t, _, hfire, hsaved, htrule, hversions, rfl⟩

theorem copyRoundTrip (h : Inv libs db) (hbits : RowIds db) (hrule : rule ∈ db.rules) :
    CopyRoundTrip libs db rule (formOf (copied rule)) := by
  intro times
  have hvalid := h.valid rule hrule
  have htrimmed := h.trimmed rule hrule
  have hcopyValid : (copied rule).values.Valid libs db.sources := { hvalid with }
  have hcopyTrimmed : (copied rule).values.Trimmed := { htrimmed with }
  have hvalidated := validateRuleForm_formOf hcopyValid hcopyTrimmed
    (hbits.dataSourceId hcopyValid)
  have hvalues := values_formOf hcopyTrimmed []
  have hstorable : ((formOf (copied rule)).values (validatedOf (copied rule)) []).Storable := by
    have hrow : { copied rule with notes := "" }.values.Valid libs db.sources := { hvalid with }
    rw [hvalues]
    exact storable_of_stored hrow (h.window rule hrule)
  obtain ⟨row, hrow⟩ := (RuleValues.store_isOk
    (newRule (nextId (db.rules.map AlertRule.id)) times.1 times.2)).mpr hstorable
  have hstored := RuleValues.store_eq_ok.mp hrow
  have hinsert := insertRule_eq_ok.mpr ⟨row, hstored, hvalid.dataSource, rfl⟩
  exact ⟨row, createRule_of_insertRule hvalidated hinsert, hstored.values.trans hvalues⟩

/-- The forms of the stored rules.  The values of a rule that is not archived, posted as they are
shown, are accepted by `update_rule` and change nothing but the time of the edit; those of its copy
are accepted by `create_rule`. -/
theorem forms_roundTrip (libs : RuleLibraries φ) (fastapi : FormBinding)
    (requests : List RuleStore.Request) (rule : AlertRule) (hfastapi : fastapi.Faithful)
    (hids : RowIds (runAll libs requests)) (hrule : rule ∈ (runAll libs requests).rules)
    (hactive : rule.archivedAt = none) :
    (∃ form, fastapi.ruleForm (posted (ruleToForm rule)) = some form ∧
        EditRoundTrip libs (runAll libs requests) rule form) ∧
      ∃ form, fastapi.ruleForm (posted (ruleToCopyForm rule)) = some form ∧
        CopyRoundTrip libs (runAll libs requests) rule form := by
  have hinv : Inv libs (runAll libs requests) := runAll_inv requests
  have hwindow := hinv.window rule hrule
  refine ⟨⟨formOf rule, ruleForm_posted hfastapi hwindow, editRoundTrip hinv hids hrule hactive⟩,
    formOf (copied rule), ?_, copyRoundTrip hinv hids hrule⟩
  rw [ruleToCopyForm_eq]
  exact ruleForm_posted hfastapi hwindow

/-- An empty value counts as one that is not posted. -/
def plainBinding : FormBinding where
  text value default := (value.filter fun t => t ≠ []).getD default
  optional value := value.filter fun t => t ≠ []
  int? value default :=
    match value.filter fun t => t ≠ [] with
    | none => some default
    | some t => PyText.int? t

theorem plainBinding_faithful : plainBinding.Faithful where
  text t default ht := by simp [plainBinding, Option.filter, ht]
  text_empty := rfl
  optional t ht := by simp [plainBinding, Option.filter, ht]
  optional_none := rfl
  int n default hn := by
    have hne : strInt n ≠ [] := fun hnil =>
      toString_ne_empty n (PyText.ofString_eq_nil.mp hnil)
    have hfilter : (some (strInt n)).filter (fun t => t ≠ []) = some (strInt n) := by
      simp [Option.filter, hne]
    show (match (some (strInt n)).filter (fun t => t ≠ []) with
      | none => some default
      | some t => PyText.int? t) = some n
    rw [hfilter]
    exact int?_strInt hn

theorem forms_roundTrip_main :
    (∃ form, plainBinding.ruleForm (posted (ruleToForm orders)) = some form ∧
        EditRoundTrip plainLibraries (runAll plainLibraries (oneRule "main")) orders form) ∧
      ∃ form, plainBinding.ruleForm (posted (ruleToCopyForm orders)) = some form ∧
        CopyRoundTrip plainLibraries (runAll plainLibraries (oneRule "main")) orders form :=
  forms_roundTrip plainLibraries plainBinding (oneRule "main") orders plainBinding_faithful
    ⟨by decide +kernel, by decide +kernel⟩ (by decide +kernel) rfl

end EarlyWarning.RuleStore
