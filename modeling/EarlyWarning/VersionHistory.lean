/-
# `VersionHistory` — the page with the versions of a rule

`_rule_snapshot`, `_version_snapshot` and `rule_versions_page` of `app/routes.py`, with the rows of
`rule_versions.html`.  A snapshot is written as the text of a dictionary, and read again for the
page.

`version_history`: whatever the order of the edits, each row of the page shows the rule as it stood
in the table at some time.  `complete_history`: as long as no request writes over a change that it
has not seen, the rows are the accepted edits, the last one first, each with the rule it replaced.
-/
import EarlyWarning.CsvExport
import EarlyWarning.Lib.JsonObject
import EarlyWarning.RuleVersions

namespace EarlyWarning.RuleVersions

open Lib EarlyWarning.RuleStore

variable {φ : Type}

/-! ## The text of a snapshot -/

/-- `value.isoformat()`: `str(value)`, with a `T` for the blank. -/
def isoformat (value : DateTime) : String :=
  String.ofList ((CsvExport.datetimeStr value).toList.map fun c => if c = ' ' then 'T' else c)

example : isoformat 63844790703000042 = "2024-02-29T08:05:03.000042" := by decide +kernel

/-- The dictionary of `_rule_snapshot`. -/
def snapshotFields (snapshot : RuleSnapshot) : Fields φ :=
  [(.ofString "id", .int snapshot.id),
    textField "name" snapshot.name,
    (.ofString "data_source_id", .int snapshot.dataSourceId),
    textField "sql_text" snapshot.sqlText,
    textField "cron_expression" snapshot.cronExpression,
    textField "recipients" snapshot.recipients,
    textField "cc_recipients" snapshot.ccRecipients,
    textField "subject_template" snapshot.subjectTemplate,
    textField "body_template" snapshot.bodyTemplate,
    textField "send_mode" snapshot.sendMode.value,
    (.ofString "query_timeout_seconds", .int snapshot.queryTimeoutSeconds),
    (.ofString "max_rows", .int snapshot.maxRows),
    (.ofString "enabled", .bool snapshot.enabled),
    textField "notes" snapshot.notes,
    textField "dynamic_recipient_field" snapshot.dynamicRecipientField,
    textField "dynamic_cc_field" snapshot.dynamicCcField,
    (.ofString "suppress_duplicates", .bool snapshot.suppressDuplicates),
    textField "suppression_key_field" snapshot.suppressionKeyField,
    (.ofString "suppression_window_hours", .int snapshot.suppressionWindowHours),
    textField "created_at" (isoformat snapshot.createdAt),
    textField "updated_at" (isoformat snapshot.updatedAt)]

/-- A row of `alertruleversion`. -/
structure StoredVersion where
  versionNumber : Nat
  changedBy : String
  changedAt : DateTime
  snapshotJson : String
deriving DecidableEq

variable (libs : RuleLibraries φ)

/-- The INSERT of a version. -/
def AlertRuleVersion.store (version : AlertRuleVersion) : Except ServerError StoredVersion := do
  let snapshotJson ← storeText (Json.dumpObject libs.floats (snapshotFields version.snapshot))
  .ok
    { versionNumber := version.versionNumber
      changedBy := version.changedBy
      changedAt := version.changedAt
      snapshotJson }

/-! ## The page -/

/-- What stands for a snapshot that cannot be read. -/
def unreadableSnapshot : Fields φ := [textField "name" "快照无法解析", textField "sql_text" ""]

/-- `_version_snapshot` -/
def versionSnapshot (snapshotJson : String) : Except Json.LoadError (Fields φ) :=
  match Json.loads libs.floats libs.nesting (.ofString snapshotJson) with
  | .ok (.dict fields) => .ok fields
  | .ok _ | .error .decodeError => .ok unreadableSnapshot
  | .error error => .error error

/-- The two rows of `rule_versions.html` for a version. -/
structure VersionRow where
  versionNumber : Nat
  changedBy : String
  changedAt : DateTime
  name : PyText
  cronExpression : PyText
  recipients : PyText
  sqlText : PyText
  dataSourceId : PyText
  sendMode : PyText
  maxRows : PyText
  dynamicRecipientField : PyText
  suppressDuplicates : PyText
deriving DecidableEq

/-- `row.snapshot.get(key, '')` -/
def cell (snapshot : Fields φ) (key : String) : PyText :=
  match Json.get? snapshot key with
  | some value => Json.toText libs.floats libs.isPrintable value
  | none => []

def versionRow (version : StoredVersion) (snapshot : Fields φ) : VersionRow where
  versionNumber := version.versionNumber
  changedBy := version.changedBy
  changedAt := version.changedAt
  name := cell libs snapshot "name"
  cronExpression := cell libs snapshot "cron_expression"
  recipients := cell libs snapshot "recipients"
  sqlText := cell libs snapshot "sql_text"
  dataSourceId := cell libs snapshot "data_source_id"
  sendMode := cell libs snapshot "send_mode"
  maxRows := cell libs snapshot "max_rows"
  dynamicRecipientField :=
    if (Json.get? snapshot "dynamic_recipient_field").any (Json.truth libs.floats) then
      cell libs snapshot "dynamic_recipient_field"
    else .ofString "未启用"
  suppressDuplicates :=
    if (Json.get? snapshot "suppress_duplicates").any (Json.truth libs.floats) then
      .ofString "启用"
    else .ofString "未启用"

inductive VersionsPage
  /-- status 404 -/
  | notFound (detail : String)
  | raised (error : Json.LoadError)
  /-- the heading, and the rows below it -/
  | page (name : String) (rows : List VersionRow)
deriving DecidableEq

/-- `rule_versions_page`, of the row of the rule and the rows that the SELECT returns. -/
def ruleVersionsPage (rule : AlertRule) (versions : List StoredVersion) : VersionsPage :=
  if rule.archivedAt.isSome then .notFound "规则不存在"
  else
    match versions.mapM fun version =>
        (versionSnapshot libs version.snapshotJson).map (versionRow libs version) with
    | .error error => .raised error
    | .ok rows => .page rule.name rows

/-- What the page should say of a version. -/
def AlertRuleVersion.row (version : AlertRuleVersion) : VersionRow where
  versionNumber := version.versionNumber
  changedBy := version.changedBy
  changedAt := version.changedAt
  name := .ofString version.snapshot.name
  cronExpression := .ofString version.snapshot.cronExpression
  recipients := .ofString version.snapshot.recipients
  sqlText := .ofString version.snapshot.sqlText
  dataSourceId := .ofString (toString (version.snapshot.dataSourceId : Int))
  sendMode := .ofString version.snapshot.sendMode.value
  maxRows := .ofString (toString version.snapshot.maxRows)
  dynamicRecipientField :=
    .ofString (if version.snapshot.dynamicRecipientField = "" then "未启用"
      else version.snapshot.dynamicRecipientField)
  suppressDuplicates :=
    .ofString (if version.snapshot.suppressDuplicates then "启用" else "未启用")

/-- The SELECT of the page, which leaves the order of one number to the database. -/
structure Selected (versions rows : List AlertRuleVersion) : Prop where
  perm : rows.Perm versions
  sorted : rows.Pairwise fun version version' => version'.versionNumber ≤ version.versionNumber

/-! ## One version -/

/-- The integers are those of a row. -/
structure IntsOk (snapshot : RuleSnapshot) : Prop where
  id : IsInt64 snapshot.id
  dataSourceId : IsInt64 snapshot.dataSourceId
  queryTimeoutSeconds : IsInt64 snapshot.queryTimeoutSeconds
  maxRows : IsInt64 snapshot.maxRows
  suppressionWindowHours : IsInt64 snapshot.suppressionWindowHours

variable {libs} {snapshot : RuleSnapshot} {version : AlertRuleVersion} {stored : StoredVersion}

theorem snapshotFields_keys (snapshot : RuleSnapshot) :
    ((snapshotFields snapshot : Fields φ).map Prod.fst).Nodup := by
  have hkeys : (snapshotFields snapshot : Fields φ).map Prod.fst =
      ["id", "name", "data_source_id", "sql_text", "cron_expression", "recipients",
        "cc_recipients", "subject_template", "body_template", "send_mode",
        "query_timeout_seconds", "max_rows", "enabled", "notes", "dynamic_recipient_field",
        "dynamic_cc_field", "suppress_duplicates", "suppression_key_field",
        "suppression_window_hours", "created_at", "updated_at"].map PyText.ofString := rfl
  rw [hkeys]
  exact List.Nodup.map (fun _ _ => PyText.ofString_injective) (by decide)

theorem plain_snapshotFields (depth : Nat) (h : IntsOk snapshot) :
    ∀ field ∈ (snapshotFields snapshot : Fields φ), Json.Plain depth field.2 := by
  simp only [snapshotFields, textField, List.forall_mem_cons]
  exact ⟨.int (digits_of_isInt64 h.id), .str _, .int (digits_of_isInt64 h.dataSourceId), .str _,
    .str _, .str _, .str _, .str _, .str _, .str _, .int (digits_of_isInt64 h.queryTimeoutSeconds),
    .int (digits_of_isInt64 h.maxRows), .bool _, .str _, .str _, .str _, .bool _, .str _,
    .int (digits_of_isInt64 h.suppressionWindowHours), .str _, .str _, fun _ h => by cases h⟩

theorem textual_snapshotFields (snapshot : RuleSnapshot) :
    ∀ field ∈ (snapshotFields snapshot : Fields φ),
      Json.IsText field.1 ∧ Json.Textual field.2 := by
  have hfield : ∀ (key : String) {value : Json φ}, Json.Textual value →
      Json.IsText (PyText.ofString key) ∧ Json.Textual value :=
    fun key _ h => ⟨Json.isText_ofString key, h⟩
  simp only [snapshotFields, textField, List.forall_mem_cons]
  exact ⟨hfield _ (.int _), hfield _ (.str _), hfield _ (.int _), hfield _ (.str _),
    hfield _ (.str _), hfield _ (.str _), hfield _ (.str _), hfield _ (.str _), hfield _ (.str _),
    hfield _ (.str _), hfield _ (.int _), hfield _ (.int _), hfield _ (.bool _), hfield _ (.str _),
    hfield _ (.str _), hfield _ (.str _), hfield _ (.bool _), hfield _ (.str _), hfield _ (.int _),
    hfield _ (.str _), hfield _ (.str _), fun _ h => by cases h⟩

theorem get?_snapshot (n : Nat) {key : String} {value : Json φ}
    (h : (snapshotFields snapshot)[n]? = some (.ofString key, value)) :
    Json.get? (snapshotFields snapshot) key = some value :=
  get?_of_mem (snapshotFields_keys snapshot) (List.mem_of_getElem? h)

theorem cell_snapshot (n : Nat) {key : String} {value : Json φ}
    (h : (snapshotFields snapshot)[n]? = some (.ofString key, value)) :
    cell libs (snapshotFields snapshot) key = Json.toText libs.floats libs.isPrintable value := by
  rw [cell, get?_snapshot n h]

theorem truth_ofString (s : String) :
    Json.truth libs.floats (.str (.ofString s)) = true ↔ s ≠ "" := by
  rw [Json.truth, Bool.not_eq_true', List.isEmpty_eq_false_iff, ne_eq, PyText.ofString_eq_nil]

/-- The rows of the page say what the snapshot says. -/
theorem versionRow_snapshot (hnumber : stored.versionNumber = version.versionNumber)
    (hchangedBy : stored.changedBy = version.changedBy)
    (hchangedAt : stored.changedAt = version.changedAt) :
    versionRow libs stored (snapshotFields version.snapshot) = version.row := by
  have hdynamic : (if (Json.get? (snapshotFields version.snapshot)
        "dynamic_recipient_field").any (Json.truth libs.floats) = true then
      cell libs (snapshotFields version.snapshot) "dynamic_recipient_field"
      else .ofString "未启用") = PyText.ofString
        (if version.snapshot.dynamicRecipientField = "" then "未启用"
          else version.snapshot.dynamicRecipientField) := by
    rw [get?_snapshot 14 rfl, cell_snapshot 14 rfl, Option.any_some]
    rcases eq_or_ne version.snapshot.dynamicRecipientField "" with hempty | hset
    · rw [if_neg (mt (truth_ofString _).mp (not_not.mpr hempty)), if_pos hempty]
    · rw [if_pos ((truth_ofString _).mpr hset), if_neg hset]
      rfl
  have hsuppress : (if (Json.get? (snapshotFields version.snapshot)
        "suppress_duplicates").any (Json.truth libs.floats) = true then .ofString "启用"
      else .ofString "未启用") =
        PyText.ofString (if version.snapshot.suppressDuplicates then "启用" else "未启用") := by
    rw [get?_snapshot 16 rfl]
    cases hflag : version.snapshot.suppressDuplicates with
    | true => rfl
    | false => rfl
  simp only [versionRow, AlertRuleVersion.row, hdynamic, hsuppress, hnumber, hchangedBy,
    hchangedAt, cell_snapshot 1 rfl, cell_snapshot 4 rfl, cell_snapshot 5 rfl,
    cell_snapshot 3 rfl, cell_snapshot 2 rfl, cell_snapshot 9 rfl, cell_snapshot 11 rfl]
  rfl

/-- **A version comes back from its text.** -/
theorem versionSnapshot_store (hnesting : 1 ≤ libs.nesting) (h : IntsOk version.snapshot) :
    ∃ stored, version.store libs = .ok stored ∧
      versionSnapshot libs stored.snapshotJson = .ok (snapshotFields version.snapshot) ∧
      versionRow libs stored (snapshotFields version.snapshot) = version.row := by
  have htext := Json.isText_dumpObject libs.floats (textual_snapshotFields version.snapshot)
  obtain ⟨text, heq⟩ := htext.eq_ofString
  obtain ⟨depth, hdepth⟩ := Nat.exists_eq_add_of_le' hnesting
  have hloads := Json.loads_dumpObject libs.floats (snapshotFields_keys version.snapshot)
    (plain_snapshotFields depth h)
  refine ⟨⟨version.versionNumber, version.changedBy, version.changedAt, text⟩, ?_, ?_, ?_⟩
  · rw [AlertRuleVersion.store, storeText_eq_ok.mpr heq]
    rfl
  · rw [versionSnapshot, ← heq, hdepth, hloads]
  · exact versionRow_snapshot rfl rfl rfl

/-- **The page** says what the versions say. -/
theorem ruleVersionsPage_store (hnesting : 1 ≤ libs.nesting) {versions : List AlertRuleVersion}
    (h : ∀ version ∈ versions, IntsOk version.snapshot) :
    ∃ stored, versions.mapM (AlertRuleVersion.store libs) = .ok stored ∧
      List.Forall₂ (fun version row =>
        versionSnapshot libs row.snapshotJson = .ok (snapshotFields version.snapshot))
        versions stored ∧
      ∀ rule : AlertRule, rule.archivedAt = none → ruleVersionsPage libs rule stored =
        .page rule.name (versions.map AlertRuleVersion.row) := by
  have hrows : ∃ stored, versions.mapM (AlertRuleVersion.store libs) = .ok stored ∧
      List.Forall₂ (fun version row =>
        versionSnapshot libs row.snapshotJson = .ok (snapshotFields version.snapshot))
        versions stored ∧
      (stored.mapM fun version =>
        (versionSnapshot libs version.snapshotJson).map (versionRow libs version)) =
        .ok (versions.map AlertRuleVersion.row) := by
    induction versions with
    | nil => exact ⟨[], rfl, .nil, rfl⟩
    | cons version versions ih =>
        obtain ⟨hversion, hrest⟩ := List.forall_mem_cons.mp h
        obtain ⟨first, hfirst, hread, hrow⟩ := versionSnapshot_store hnesting hversion
        obtain ⟨others, hothers, hreads, hrows⟩ := ih hrest
        refine ⟨first :: others, ?_, .cons hread hreads, ?_⟩
        · rw [List.mapM_cons, hfirst, hothers]
          rfl
        · rw [List.mapM_cons, hread, hrows, Except.map, hrow]
          rfl
  obtain ⟨stored, hstored, hreads, hrows⟩ := hrows
  refine ⟨stored, hstored, hreads, fun rule hactive => ?_⟩
  rw [ruleVersionsPage, hactive, hrows]
  rfl

/-! ## What has stood in the table -/

section

variable {ι : Type} [DecidableEq ι] (libs : RuleLibraries φ) (sources : List SqlDataSource)
  (requests : ι → Request)

/-- `rule` was the row of the rule after some of these steps. -/
def Stood (start : State ι) (labels : List (Label ι)) (rule : AlertRule) : Prop :=
  ∃ earlier later s, labels = earlier ++ later ∧
    fire (step libs sources requests) start earlier = some s ∧ s.rule = rule

/-- A version is about a rule that stood in the table. -/
def Genuine (start : State ι) (labels : List (Label ι)) (version : AlertRuleVersion) : Prop :=
  ∃ rule, Stood libs sources requests start labels rule ∧ version.snapshot = ruleSnapshot rule

/-- The same for what a request has in hand. -/
def PhaseGenuine (start : State ι) (labels : List (Label ι)) : Phase → Prop
  | .loaded rule =>
      Stood libs sources requests start labels rule ∧ IntsOk (ruleSnapshot rule)
  | .versioned rule _ version =>
      Stood libs sources requests start labels rule ∧ IntsOk (ruleSnapshot rule) ∧
        version.snapshot = ruleSnapshot rule
  | _ => True

/-- The steps that a request has made are among these. -/
def PhaseMade (labels : List (Label ι)) (i : ι) : Phase → Prop
  | .loaded _ => [.load i].Sublist labels
  | .versioned _ _ version => [.load i, .createVersion i version.changedAt].Sublist labels
  | _ => True

end

variable {ι : Type} [DecidableEq ι] {sources : List SqlDataSource} {requests : ι → Request}
  {start s t : State ι} {labels : List (Label ι)} {label : Label ι} {rule new current : AlertRule}
  {phase : Phase} {i : ι} {rows : List AlertRuleVersion}

theorem Stood.snoc (h : Stood libs sources requests start labels rule) :
    Stood libs sources requests start (labels ++ [label]) rule := by
  obtain ⟨earlier, later, s, rfl, hrun, hrule⟩ := h
  exact ⟨earlier, later ++ [label], s, List.append_assoc _ _ _, hrun, hrule⟩

theorem Stood.now (hrun : fire (step libs sources requests) start labels = some s) :
    Stood libs sources requests start (labels ++ [label]) s.rule :=
  ⟨labels, [label], s, rfl, hrun, rfl⟩

theorem Genuine.snoc (h : Genuine libs sources requests start labels version) :
    Genuine libs sources requests start (labels ++ [label]) version := by
  obtain ⟨rule, hstood, hsnapshot⟩ := h
  exact ⟨rule, hstood.snoc, hsnapshot⟩

theorem PhaseGenuine.snoc (h : PhaseGenuine libs sources requests start labels phase) :
    PhaseGenuine libs sources requests start (labels ++ [label]) phase := by
  cases phase with
  | idle => trivial
  | loaded rule => exact ⟨h.1.snoc, h.2⟩
  | versioned rule validated version => exact ⟨h.1.snoc, h.2⟩
  | finished outcome => trivial

omit [DecidableEq ι] in
theorem PhaseMade.snoc (h : PhaseMade labels i phase) : PhaseMade (labels ++ [label]) i phase := by
  cases phase with
  | idle => trivial
  | loaded rule => exact h.trans (List.sublist_append_left _ _)
  | versioned rule validated version => exact h.trans (List.sublist_append_left _ _)
  | finished outcome => trivial

/-- What the run so far has made. -/
structure PastOk (libs : RuleLibraries φ) (sources : List SqlDataSource) (requests : ι → Request)
    (start : State ι) (labels : List (Label ι)) (s : State ι) : Prop where
  ints : IntsOk (ruleSnapshot s.rule)
  phases : ∀ i, PhaseGenuine libs sources requests start labels (s.phase i)
  validated : ∀ i, PhaseOk libs sources (requests i) (s.phase i)
  made : ∀ i, PhaseMade labels i (s.phase i)
  versions : ∀ version ∈ s.versions,
    Genuine libs sources requests start labels version ∧ IntsOk version.snapshot

theorem IntsOk.flushRule {loaded : AlertRule} (hnew : IntsOk (ruleSnapshot new))
    (hcurrent : IntsOk (ruleSnapshot current)) :
    IntsOk (ruleSnapshot (flushRule loaded new current)) where
  id := hcurrent.id
  dataSourceId :=
    flushed_elim (p := fun n : Nat => IsInt64 n) hnew.dataSourceId hcurrent.dataSourceId
  queryTimeoutSeconds := flushed_elim hnew.queryTimeoutSeconds hcurrent.queryTimeoutSeconds
  maxRows := flushed_elim hnew.maxRows hcurrent.maxRows
  suppressionWindowHours :=
    flushed_elim hnew.suppressionWindowHours hcurrent.suppressionWindowHours

/-- The form of a request names a data source that is there. -/
theorem intsOk_assign {form : RuleForm} {validated : ValidatedForm} {now : DateTime}
    (hsources : ∀ source ∈ sources, IsInt64 source.id) (hrule : IntsOk (ruleSnapshot rule))
    (hvalidated : validateRuleForm libs sources form = .ok validated)
    (hnew : assign rule form validated now = .ok new) : IntsOk (ruleSnapshot new) := by
  have hstored := RuleValues.store_eq_ok.mp hnew
  have hsourceId : new.dataSourceId = validated.sourceId :=
    congrArg RuleValues.dataSourceId hstored.values
  obtain ⟨source, hsource, hid⟩ :=
    List.mem_map.mp (validateRuleForm_valid hvalidated []).dataSource
  refine ⟨?_, ?_, hstored.queryTimeoutSeconds, hstored.maxRows, hstored.suppressionWindowHours⟩
  · show IsInt64 new.id
    rw [hstored.id]
    exact hrule.id
  · show IsInt64 new.dataSourceId
    have hsame : validated.sourceId = source.id := hid.symm
    rw [hsourceId, hsame]
    exact hsources source hsource

theorem genuine_update {phase : ι → Phase} {next : Phase}
    (h : ∀ j, PhaseGenuine libs sources requests start labels (phase j))
    (hnext : PhaseGenuine libs sources requests start labels next) :
    ∀ j, PhaseGenuine libs sources requests start labels (Function.update phase i next j) :=
  (Function.forall_update_iff phase fun _ => PhaseGenuine libs sources requests start labels).mpr
    ⟨hnext, fun j _ => h j⟩

theorem made_update {phase : ι → Phase} {next : Phase} (h : ∀ j, PhaseMade labels j (phase j))
    (hnext : PhaseMade labels i next) :
    ∀ j, PhaseMade labels j (Function.update phase i next j) :=
  (Function.forall_update_iff phase (PhaseMade labels)).mpr ⟨hnext, fun j _ => h j⟩

/-- **One step.** -/
theorem PastOk.step (hsources : ∀ source ∈ sources, IsInt64 source.id)
    (hrun : fire (step libs sources requests) start labels = some s)
    (h : PastOk libs sources requests start labels s)
    (hstep : step libs sources requests s label = some t) :
    PastOk libs sources requests start (labels ++ [label]) t := by
  have hvalidated := phaseOk_step h.validated hstep
  have hphases : ∀ j, PhaseGenuine libs sources requests start (labels ++ [label]) (s.phase j) :=
    fun j => (h.phases j).snoc
  have hmade : ∀ j, PhaseMade (labels ++ [label]) j (s.phase j) := fun j => (h.made j).snoc
  have hversions : ∀ version ∈ s.versions,
      Genuine libs sources requests start (labels ++ [label]) version ∧ IntsOk version.snapshot :=
    fun version hversion => ⟨(h.versions version hversion).1.snoc, (h.versions version hversion).2⟩
  cases label with
  | load i =>
      obtain ⟨-, rfl | ⟨-, rfl⟩⟩ := load_cases hstep
      · exact ⟨h.ints, genuine_update hphases trivial, hvalidated, made_update hmade trivial,
          hversions⟩
      · exact ⟨h.ints, genuine_update hphases ⟨.now hrun, h.ints⟩, hvalidated,
          made_update hmade (List.sublist_append_right labels [.load i]), hversions⟩
  | createVersion i now =>
      obtain ⟨rule, hloaded, ⟨refusal, rfl⟩ | ⟨validated, -, rfl⟩⟩ := createVersion_cases hstep
      · exact ⟨h.ints, genuine_update hphases trivial, hvalidated, made_update hmade trivial,
          hversions⟩
      · have hrule := hphases i
        have hload := h.made i
        rw [hloaded] at hrule hload
        exact ⟨h.ints, genuine_update hphases ⟨hrule.1, hrule.2, rfl⟩, hvalidated,
          made_update hmade (hload.append (.refl [Label.createVersion i now])), hversions⟩
  | write i now =>
      obtain ⟨rule, validated, version, hversioned, ⟨error, rfl⟩ | ⟨new, hnew, rfl⟩⟩ :=
        write_cases hstep
      · exact ⟨h.ints, genuine_update hphases trivial, hvalidated, made_update hmade trivial,
          hversions⟩
      · have hrule := hphases i
        have hok := h.validated i
        rw [hversioned] at hrule hok
        obtain ⟨hstood, hints, hsnapshot⟩ := hrule
        refine ⟨(intsOk_assign hsources hints hok.2.1 hnew).flushRule h.ints,
          genuine_update hphases trivial, hvalidated, made_update hmade trivial,
          fun version' hversion' => ?_⟩
        rcases List.mem_append.mp hversion' with hold | hlast
        · exact hversions version' hold
        · rw [List.mem_singleton.mp hlast]
          exact ⟨⟨rule, hstood, hsnapshot⟩, hsnapshot ▸ hints⟩

theorem Initial.past (hstart : Initial start) (hints : IntsOk (ruleSnapshot start.rule)) :
    PastOk libs sources requests start [] start where
  ints := hints
  phases i := by
    rw [hstart.idle i]
    trivial
  validated i := by
    rw [hstart.idle i]
    trivial
  made i := by
    rw [hstart.idle i]
    trivial
  versions version hversion := by
    rw [hstart.versions] at hversion
    cases hversion

theorem PastOk.run (hsources : ∀ source ∈ sources, IsInt64 source.id) (hstart : Initial start)
    (hints : IntsOk (ruleSnapshot start.rule))
    (hrun : fire (RuleVersions.step libs sources requests) start labels = some s) :
    PastOk libs sources requests start labels s :=
  fire_history (P := PastOk libs sources requests start)
    (fun _ _ _ _ hpast h hstep => h.step hsources hpast hstep) (fire_nil.mpr rfl)
    (hstart.past hints) hrun

/-- Whatever the order of the edits: the text of every snapshot is read back as the dictionary that
it was made from, so the page can be shown and its rows say what the versions say; and every
version says of the rule what stood in the table after some of the steps. -/
theorem version_history (hnesting : 1 ≤ libs.nesting)
    (hsources : ∀ source ∈ sources, IsInt64 source.id) (hstart : Initial start)
    (hints : IntsOk (ruleSnapshot start.rule))
    (hrun : fire (RuleVersions.step libs sources requests) start labels = some s)
    (hselected : Selected s.versions rows) :
    (∃ stored, rows.mapM (AlertRuleVersion.store libs) = .ok stored ∧
      List.Forall₂ (fun version row =>
        versionSnapshot libs row.snapshotJson = .ok (snapshotFields version.snapshot))
        rows stored ∧
      (s.rule.archivedAt = none → ruleVersionsPage libs s.rule stored =
        .page s.rule.name (rows.map AlertRuleVersion.row))) ∧
    ∀ version ∈ rows, Genuine libs sources requests start labels version := by
  have hpast := PastOk.run hsources hstart hints hrun
  have hrows : ∀ version ∈ rows,
      Genuine libs sources requests start labels version ∧ IntsOk version.snapshot :=
    fun version hversion => hpast.versions version (hselected.perm.mem_iff.mp hversion)
  obtain ⟨stored, hstored, hreads, hpage⟩ :=
    ruleVersionsPage_store hnesting fun version hversion => (hrows version hversion).2
  exact ⟨⟨stored, hstored, hreads, hpage s.rule⟩,
    fun version hversion => (hrows version hversion).1⟩

/-! ## The whole history -/

/-- The transaction of an edit. -/
def Edit.written (edit : Edit ι) : Label ι := .write edit.request edit.updatedAt

/-- The requests that are accepted in `s` are those of `order`, each once, with the times at which
they were handled, and in the order of their transactions. -/
structure AcceptedInOrder (labels : List (Label ι)) (s : State ι) (order : List (Edit ι)) : Prop
    where
  once : (order.map Edit.request).Nodup
  accepted : ∀ i, i ∈ order.map Edit.request ↔ Saved s i
  made : ∀ edit ∈ order, edit.labels.Sublist labels
  transactions : (order.map Edit.written).Sublist labels

/-- The version that an edit makes. -/
theorem OneByOne.versions {order : List (Edit ι)} (hstart : Initial start)
    (h : OneByOne libs sources requests start order s) :
    ∀ k edit, order[k]? = some edit →
      ∃ before, OneByOne libs sources requests start (order.take k) before ∧
        s.versions[k]? = some
          { ruleId := before.rule.id
            versionNumber := k + 1
            changedBy := (requests edit.request).username
            snapshot := ruleSnapshot before.rule
            changedAt := edit.changedAt } := by
  induction h with
  | nil =>
      intro k edit hedit
      cases hedit
  | @snoc order last before t hbefore hfire hsaved ih =>
      intro k edit hedit
      obtain ⟨-, -, _, _, -, -, -, hversions, -⟩ := saved_cases hfire hsaved
      have hlength := hbefore.length hstart
      have hk : k < order.length + 1 := by
        simpa using (List.getElem?_eq_some_iff.mp hedit).1
      rcases Nat.lt_succ_iff_lt_or_eq.mp hk with hlt | rfl
      · rw [List.getElem?_append_left hlt] at hedit
        rw [List.take_append_of_le_length hlt.le, hversions,
          List.getElem?_append_left (hlength ▸ hlt)]
        exact ih k edit hedit
      · rw [List.getElem?_concat_length] at hedit
        cases hedit
        refine ⟨before, ?_, ?_⟩
        · rwa [List.take_left']
          rfl
        · rw [hversions, ← hlength, List.getElem?_concat_length, createRuleVersion,
            nextRuleVersionNumber_eq (hbefore.numbers hstart), hlength]

/-- Where the numbers are those of a sequence, there is one order for the SELECT. -/
theorem Selected.eq_reverse {versions : List AlertRuleVersion} (h : Selected versions rows)
    (hnumbers : versions.map AlertRuleVersion.versionNumber = List.range' 1 versions.length) :
    rows = versions.reverse := by
  have hnodup : (versions.map AlertRuleVersion.versionNumber).Nodup := by
    rw [hnumbers]
    exact List.nodup_range'
  have hsorted : versions.Pairwise fun version version' =>
      version.versionNumber ≤ version'.versionNumber := by
    have hrange : (List.range' 1 versions.length).Pairwise (· ≤ ·) := List.pairwise_le_range' 1
    rw [← hnumbers, List.pairwise_map] at hrange
    exact hrange
  have hreverse : versions.reverse.Pairwise fun version version' =>
      version'.versionNumber ≤ version.versionNumber := List.pairwise_reverse.mpr hsorted
  refine List.Perm.eq_of_pairwise ?_ h.sorted hreverse
    (h.perm.trans (List.reverse_perm versions).symm)
  intro version version' hversion hversion' hle hge
  have hmem := h.perm.mem_iff.mp hversion
  have hmem' := List.mem_reverse.mp hversion'
  exact List.inj_on_of_nodup_map hnodup hmem hmem' (Nat.le_antisymm hge hle)

/-- The accepted requests of the run so far, and what they have left. -/
def Traced (libs : RuleLibraries φ) (sources : List SqlDataSource) (requests : ι → Request)
    (start : State ι) (labels : List (Label ι)) (s : State ι) (order : List (Edit ι)) : Prop :=
  Follows libs sources requests start s order ∧ AcceptedInOrder labels s order

/-- **One step.** -/
theorem Traced.step {order : List (Edit ι)}
    (h : Traced libs sources requests start labels s order)
    (hpast : PastOk libs sources requests start labels s)
    (hundisturbed : Undisturbed requests s label)
    (hstep : step libs sources requests s label = some t) :
    ∃ order, Traced libs sources requests start (labels ++ [label]) t order := by
  obtain ⟨hfollows, hbefore⟩ := h
  have hmade : ∀ edit ∈ order, edit.labels.Sublist (labels ++ [label]) := fun edit hedit =>
    (hbefore.made edit hedit).trans (List.sublist_append_left _ _)
  obtain hsame | ⟨i, now, validated, version, rfl, hphase, hnext⟩ :=
    follows_step hpast.validated hfollows hundisturbed hstep
  · exact ⟨order, hsame, hsame.once, hsame.accepted, hmade,
      hbefore.transactions.trans (List.sublist_append_left _ _)⟩
  · have hinHand := hpast.made i
    rw [hphase] at hinHand
    refine ⟨_, hnext, hnext.once, hnext.accepted, fun edit hedit => ?_, ?_⟩
    · rcases List.mem_append.mp hedit with hold | hlast
      · exact hmade edit hold
      · cases List.mem_singleton.mp hlast
        exact hinHand.append (.refl [Label.write i now])
    · rw [List.map_append]
      exact hbefore.transactions.append (.refl [Label.write i now])

theorem Initial.traced (hstart : Initial start) :
    Traced libs sources requests start [] start [] :=
  have hfollows := hstart.follows
  ⟨hfollows, hfollows.once, hfollows.accepted, fun _ h => absurd h List.not_mem_nil,
    List.Sublist.refl []⟩

theorem exists_traced (hsources : ∀ source ∈ sources, IsInt64 source.id) (hstart : Initial start)
    (hints : IntsOk (ruleSnapshot start.rule))
    (hrun : fire (step libs sources requests) start labels = some s)
    (hundisturbed : Every (step libs sources requests) (Undisturbed requests) start labels) :
    ∃ order, Traced libs sources requests start labels s order := by
  have hinv : Every (step libs sources requests) (Undisturbed requests) start ([] ++ labels) →
      ∃ order, Traced libs sources requests start ([] ++ labels) s order := by
    refine fire_history (P := fun past u =>
      Every (step libs sources requests) (Undisturbed requests) start past →
        ∃ order, Traced libs sources requests start past u order) ?_ (fire_nil.mpr rfl)
      (fun _ => ⟨[], hstart.traced⟩) hrun
    intro past u label v hpast hbefore hstep hevery
    obtain ⟨order, htraced⟩ := hbefore hevery.left
    exact htraced.step (PastOk.run hsources hstart hints hpast) (hevery.last hpast) hstep
  exact hinv hundisturbed

/-- As long as no request writes over a change that it has not seen: the rows of the page are the
accepted edits, the last one first, each with its number, who made it, and the rule as it was. -/
theorem complete_history (hnesting : 1 ≤ libs.nesting)
    (hsources : ∀ source ∈ sources, IsInt64 source.id) (hstart : Initial start)
    (hints : IntsOk (ruleSnapshot start.rule))
    (hrun : fire (step libs sources requests) start labels = some s)
    (hundisturbed : Every (step libs sources requests) (Undisturbed requests) start labels)
    (hselected : Selected s.versions rows) :
    ∃ order : List (Edit ι), AcceptedInOrder labels s order ∧
      ∃ stored shown, rows.mapM (AlertRuleVersion.store libs) = .ok stored ∧
        (s.rule.archivedAt = none → ruleVersionsPage libs s.rule stored =
          .page s.rule.name shown) ∧
        shown.length = order.length ∧
        ∀ k edit, order[k]? = some edit →
          ∃ before, OneByOne libs sources requests start (order.take k) before ∧
            shown.reverse[k]? = some (AlertRuleVersion.row
              { ruleId := before.rule.id
                versionNumber := k + 1
                changedBy := (requests edit.request).username
                snapshot := ruleSnapshot before.rule
                changedAt := edit.changedAt }) := by
  obtain ⟨order, hfollows, horder⟩ := exists_traced hsources hstart hints hrun hundisturbed
  obtain ⟨u, hserial, -, hversions, -⟩ := hfollows.serial
  have hlength : s.versions.length = order.length := hversions ▸ hserial.length hstart
  have hreverse : rows = s.versions.reverse :=
    hselected.eq_reverse (hlength ▸ hversions ▸ hserial.numbers hstart)
  have hpast := PastOk.run hsources hstart hints hrun
  obtain ⟨stored, hstored, -, hpage⟩ := ruleVersionsPage_store hnesting
    fun version hversion => (hpast.versions version (hselected.perm.mem_iff.mp hversion)).2
  refine ⟨order, horder, stored, _, hstored, hpage s.rule, ?_, fun k edit hedit => ?_⟩
  · rw [List.length_map, hreverse, List.length_reverse, hlength]
  · obtain ⟨before, hbefore, hversion⟩ := hserial.versions hstart k edit hedit
    refine ⟨before, hbefore, ?_⟩
    rw [hreverse, ← List.map_reverse, List.reverse_reverse, List.getElem?_map, ← hversions,
      hversion]
    rfl

/-! ## Two edits -/

theorem exists_selected (versions : List AlertRuleVersion) : ∃ rows, Selected versions rows := by
  let newer : AlertRuleVersion → AlertRuleVersion → Prop := fun version version' =>
    version'.versionNumber ≤ version.versionNumber
  have htotal : Std.Total newer := ⟨fun _ _ => Nat.le_total _ _⟩
  have htrans : IsTrans AlertRuleVersion newer := ⟨fun _ _ _ h h' => Nat.le_trans h' h⟩
  exact ⟨versions.insertionSort newer, List.perm_insertionSort newer versions,
    List.pairwise_insertionSort newer versions⟩

theorem orders_intsOk : IntsOk (ruleSnapshot orders) :=
  ⟨by decide, by decide, by decide, by decide, by decide⟩

theorem mainSource_isInt64 : ∀ source ∈ [mainSource], IsInt64 source.id := by decide

/-- Two versions of one number, both of them of the rule that stood there at the beginning. -/
theorem version_history_mixed :
    ∃ (s : State (Fin 2)) (rows : List AlertRuleVersion),
      fire (step plainLibraries [mainSource] twoEdits) ordersIdle
        [.load 0, .load 1, .createVersion 0 1, .createVersion 1 2, .write 0 3, .write 1 4] =
          some s ∧ rows.length = 2 ∧
      (∃ stored, rows.mapM (AlertRuleVersion.store plainLibraries) = .ok stored ∧
        List.Forall₂ (fun version row => versionSnapshot plainLibraries row.snapshotJson =
          .ok (snapshotFields version.snapshot)) rows stored ∧
        (s.rule.archivedAt = none → ruleVersionsPage plainLibraries s.rule stored =
          .page s.rule.name (rows.map AlertRuleVersion.row))) ∧
      ∀ version ∈ rows, Genuine plainLibraries [mainSource] twoEdits ordersIdle
        [.load 0, .load 1, .createVersion 0 1, .createVersion 1 2, .write 0 3, .write 1 4]
        version := by
  have hafter : ordersAfter
      [.load 0, .load 1, .createVersion 0 1, .createVersion 1 2, .write 0 3, .write 1 4] =
      some ({ orders with name := "sales", cronExpression := "0 * * * *", updatedAt := 4 }, [1, 1],
        .finished (.redirect "/rules"), .finished (.redirect "/rules")) := by
    decide +kernel
  obtain ⟨s, hrun, hleft⟩ := Option.map_eq_some_iff.mp hafter
  simp only [Prod.mk.injEq] at hleft
  obtain ⟨rows, hselected⟩ := exists_selected s.versions
  have hlength : rows.length = 2 := by
    have hnumbers := congrArg List.length hleft.2.1
    rw [List.length_map] at hnumbers
    exact hselected.perm.length_eq.trans hnumbers
  exact ⟨s, rows, hrun, hlength, version_history (by decide) mainSource_isInt64
    ordersIdle_initial orders_intsOk hrun hselected⟩

theorem complete_history_inTurn :
    ∃ (s : State (Fin 2)) (rows : List AlertRuleVersion),
      fire (step plainLibraries [mainSource] twoEdits) ordersIdle
        ([⟨0, 1, 2⟩, ⟨1, 3, 4⟩].flatMap Edit.labels) = some s ∧ Selected s.versions rows ∧
      ∃ order : List (Edit (Fin 2)),
        AcceptedInOrder ([⟨0, 1, 2⟩, ⟨1, 3, 4⟩].flatMap Edit.labels) s order ∧
        ∃ stored shown, rows.mapM (AlertRuleVersion.store plainLibraries) = .ok stored ∧
          (s.rule.archivedAt = none → ruleVersionsPage plainLibraries s.rule stored =
            .page s.rule.name shown) ∧
          shown.length = order.length ∧
          ∀ k edit, order[k]? = some edit →
            ∃ before, OneByOne plainLibraries [mainSource] twoEdits ordersIdle (order.take k)
                before ∧
              shown.reverse[k]? = some (AlertRuleVersion.row
                { ruleId := before.rule.id
                  versionNumber := k + 1
                  changedBy := (twoEdits edit.request).username
                  snapshot := ruleSnapshot before.rule
                  changedAt := edit.changedAt }) := by
  have hafter : (ordersAfter ([⟨0, 1, 2⟩, ⟨1, 3, 4⟩].flatMap Edit.labels)).isSome := by
    decide +kernel
  obtain ⟨left, hleft⟩ := Option.isSome_iff_exists.mp hafter
  obtain ⟨s, hrun, -⟩ := Option.map_eq_some_iff.mp hleft
  obtain ⟨rows, hselected⟩ := exists_selected s.versions
  exact ⟨s, rows, hrun, hselected, complete_history (by decide) mainSource_isInt64
    ordersIdle_initial orders_intsOk hrun (undisturbed_order _ _) hselected⟩

end EarlyWarning.RuleVersions
