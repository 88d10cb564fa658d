/-
# `RuleProtocol` — rules and data sources, any number of requests at once

The requests of `RuleStore`, step by step: a request loads the row it is about, checks its form
against the tables, and writes in one transaction.  Between two steps the others go on.  A flush
writes the columns of a row whose value is not the loaded one; the keys and the unique names are
checked on the tables as they are then.

So no rule ever refers to a data source that is not there, and every column of a rule is one that
a form was accepted with (`shared_tables`).  The columns may be those of two forms, though, and a
rule may then be one that no form would be accepted with (`mixed_forms`).
-/
import EarlyWarning.RuleVersions
import Mathlib.Data.Fin.VecNotation

namespace EarlyWarning.RuleProtocol

open Lib EarlyWarning.RuleStore

/-! ## The steps of a request -/

inductive Phase
  | idle
  | loadedRule (rule : AlertRule)
  | loadedSource (source : SqlDataSource)
  /-- the form is valid -/
  | creating (values : RuleValues)
  | updating (rule : AlertRule) (validated : ValidatedForm)
  | importing (rules : List RuleValues)
  /-- the port and the timeout of a new data source -/
  | adding (values : Int × Int)
  | saving (source : SqlDataSource) (values : Int × Int)
  /-- no rule refers to the data source -/
  | deleting (source : SqlDataSource)
  | finished (outcome : Outcome)
deriving DecidableEq

def loadRule (db : RuleDb) (ruleId : Int) : Phase :=
  match getActiveRule db ruleId with
  | .error outcome => .finished outcome
  | .ok rule => .loadedRule rule

def loadSource (db : RuleDb) (sourceId : Int) : Phase :=
  match getSource db.sources sourceId with
  | .error error => .finished (.raised error)
  | .ok none => .finished (.notFound "数据源不存在")
  | .ok (some source) => .loadedSource source

/-- The first SELECT of the requests that name a row. -/
def load (db : RuleDb) : Request → Option Phase
  | .updateRule ruleId _ _ | .archiveRule ruleId _ => some (loadRule db ruleId)
  | .updateSource sourceId _ | .deleteSource sourceId => some (loadSource db sourceId)
  | .createRule _ _ | .importRules _ _ | .createSource _ => none

section

variable {φ : Type} (libs : RuleLibraries φ)

def checkForm (db : RuleDb) (form : RuleForm) (next : ValidatedForm → Phase) : Phase :=
  match validateRuleForm libs db.sources form with
  | .error refusal => .finished (.ofRefusal refusal)
  | .ok validated => next validated

def checkImport (db : RuleDb) (bytes : ByteArray) : Phase :=
  match readUpload libs bytes with
  | .invalid error => .finished (.page error)
  | .tooDeep => .finished (.raised .recursionError)
  | .payload payload =>
      match buildImportedRules libs db.sources payload with
      | .error (.valueError message) => .finished (.page message)
      | .error .overflowError => .finished (.raised .overflowError)
      | .ok rules => .importing rules

/-- The numbers of a data source, and whether its name is another one's: `taken` of the row that
has the name. -/
def checkSourceForm (db : RuleDb) (form : DataSourceForm) (taken : SqlDataSource → Bool)
    (next : Int × Int → Phase) : Phase :=
  match parseSqlConnectionValues form.port form.connectTimeoutSeconds with
  | .error error => .finished (.page error)
  | .ok values =>
      match findByName db form.name with
      | .error error => .finished (.raised error)
      | .ok existing =>
          if existing.any taken then .finished (.page "数据源名称已存在") else next values

def checkUnused (db : RuleDb) (source : SqlDataSource) : Phase :=
  let names := (db.rules.filter fun rule => rule.dataSourceId = source.id).map AlertRule.name
  if names ≠ [] then
    let ruleNames := PyStr.join "、" (names.insertionSort (· ≤ ·))
    .finished (.page s!"数据源正在被规则引用：{ruleNames}")
  else .deleting source

/-- The SELECT that the form is checked with. -/
def check (db : RuleDb) : Request → Phase → Option Phase
  | .createRule form _, .idle =>
      some (checkForm libs db form fun validated => .creating (form.values validated []))
  | .updateRule _ form _, .loadedRule rule => some (checkForm libs db form (.updating rule))
  | .importRules bytes _, .idle => some (checkImport libs db bytes)
  | .createSource form, .idle => some (checkSourceForm db form (fun _ => true) .adding)
  | .updateSource _ form, .loadedSource source =>
      some (checkSourceForm db form (fun existing => existing.id ≠ source.id) (.saving source))
  | .deleteSource _, .loadedSource source => some (checkUnused db source)
  | _, _ => none

end

/-! ## The transactions -/

/-- The UPDATE of a rule. -/
def flushRule (loaded new current : AlertRule) : AlertRule :=
  { RuleVersions.flushRule loaded new current with
    archivedAt := flushed loaded.archivedAt new.archivedAt current.archivedAt }

def writeRule (db : RuleDb) (loaded new : AlertRule) : Except ServerError RuleDb :=
  match db.rules.find? fun rule => rule.id = loaded.id with
  | none => if new = loaded then .ok db else .error .staleDataError
  | some current => do
      let row := flushRule loaded new current
      checkSource db row.dataSourceId
      .ok (replaceRule db row)

/-- The UPDATE of a data source. -/
def flushSource (loaded new current : SqlDataSource) : SqlDataSource where
  id := current.id
  name := flushed loaded.name new.name current.name
  host := flushed loaded.host new.host current.host
  port := flushed loaded.port new.port current.port
  database := flushed loaded.database new.database current.database
  username := flushed loaded.username new.username current.username
  encryptedPassword :=
    flushed loaded.encryptedPassword new.encryptedPassword current.encryptedPassword
  enabled := flushed loaded.enabled new.enabled current.enabled
  connectTimeoutSeconds :=
    flushed loaded.connectTimeoutSeconds new.connectTimeoutSeconds current.connectTimeoutSeconds
  odbcDriver := flushed loaded.odbcDriver new.odbcDriver current.odbcDriver
  serverOverride := flushed loaded.serverOverride new.serverOverride current.serverOverride
  encrypt := flushed loaded.encrypt new.encrypt current.encrypt
  trustServerCertificate :=
    flushed loaded.trustServerCertificate new.trustServerCertificate
      current.trustServerCertificate
  extraParams := flushed loaded.extraParams new.extraParams current.extraParams

/-- `touched`: the time in `updated_at` becomes another one, and there is an UPDATE anyway. -/
def writeSource (db : RuleDb) (loaded new : SqlDataSource) (touched : Bool) :
    Except ServerError RuleDb :=
  match db.sources.find? fun source => source.id = loaded.id with
  | none => if new = loaded ∧ touched = false then .ok db else .error .staleDataError
  | some current => do
      let row := flushSource loaded new current
      checkName (db.sources.filter fun other => other.id ≠ row.id) row.name
      .ok { db with
        sources := db.sources.map fun other => if other.id = row.id then row else other }

/-- A DELETE that finds no row is only warned of. -/
def removeSource (db : RuleDb) (source : SqlDataSource) : Except ServerError RuleDb :=
  if source.id ∈ db.sources.map SqlDataSource.id ∧
      source.id ∈ db.rules.map AlertRule.dataSourceId then
    .error .integrityError
  else .ok { db with sources := db.sources.filter fun other => other.id ≠ source.id }

/-- The attributes that `update_sql_server_settings` sets. -/
def assignSource (source : SqlDataSource) (form : DataSourceForm) (values : Int × Int) :
    Except ServerError SqlDataSource := do
  let _ ← storeText form.password
  form.store values
    (if form.password = [] then source.encryptedPassword else form.encryptedPassword) source.id
    (form.trustServerCertificate.getD (.ofString source.trustServerCertificate))

/-- The transaction of `create_sql_server_settings`. -/
def insertSource (db : RuleDb) (form : DataSourceForm) (values : Int × Int) :
    Except ServerError RuleDb := do
  let _ ← storeText form.password
  let row ← form.store values form.encryptedPassword (nextId (db.sources.map SqlDataSource.id))
    (form.trustServerCertificate.getD (.ofString "no"))
  checkName db.sources row.name
  .ok { db with sources := db.sources ++ [row] }

def write (db : RuleDb) (touched : Bool) : Request → Phase → Option (Outcome × RuleDb)
  | .createRule _ times, .creating values =>
      some (commit db "/rules" (insertRule db values times))
  | .updateRule _ form now, .updating rule validated =>
      some (commit db "/rules" do
        let new ← RuleVersions.assign rule form validated now
        writeRule db rule new)
  | .archiveRule _ now, .loadedRule rule =>
      some (commit db "/rules" (writeRule db rule
        { rule with enabled := false, archivedAt := some now, updatedAt := now }))
  | .importRules _ times, .importing rules =>
      some (commit db s!"/rules?imported={rules.length}" (insertRules db rules times))
  | .createSource form, .adding values =>
      some (commit db "/settings" (insertSource db form values))
  | .updateSource _ form, .saving source values =>
      some (commit db "/settings" do
        let new ← assignSource source form values
        writeSource db source new touched)
  | .deleteSource _, .deleting source => some (commit db "/settings" (removeSource db source))
  | _, _ => none

/-! ## Interleavings -/

structure State (ι : Type) where
  db : RuleDb
  phase : ι → Phase

inductive Label (ι : Type)
  | load (i : ι)
  | check (i : ι)
  | write (i : ι) (touched : Bool)
deriving DecidableEq

/-- Nobody has asked for anything yet. -/
def start (ι : Type) : State ι := ⟨emptyDb, fun _ => .idle⟩

section

variable {φ ι : Type} [DecidableEq ι] (libs : RuleLibraries φ) (requests : ι → Request)

def State.enter (s : State ι) (i : ι) (phase : Phase) : State ι :=
  { s with phase := Function.update s.phase i phase }

def step (s : State ι) : Label ι → Option (State ι)
  | .load i =>
      match s.phase i with
      | .idle => (load s.db (requests i)).map (s.enter i)
      | _ => none
  | .check i => (check libs s.db (requests i) (s.phase i)).map (s.enter i)
  | .write i touched =>
      (write s.db touched (requests i) (s.phase i)).map fun result =>
        { s.enter i (.finished result.1) with db := result.2 }

end

/-! ## What holds of the tables -/

/-- Every column is one that a form was accepted with. -/
structure ColumnsOk {φ : Type} (libs : RuleLibraries φ) (rule : AlertRule) : Prop where
  queryTimeoutSeconds : 1 ≤ rule.queryTimeoutSeconds ∧ rule.queryTimeoutSeconds ≤ 600
  maxRows : 1 ≤ rule.maxRows ∧ rule.maxRows ≤ 5000
  sqlText : validateSelectOnlySql libs (.ofString rule.sqlText) = .ok ()
  cronExpression : libs.fromCrontab (.ofString rule.cronExpression) = true
  trimmed : rule.values.Trimmed
  suppressionWindowHours : IsInt64 rule.suppressionWindowHours

structure TablesOk {φ : Type} (libs : RuleLibraries φ) (db : RuleDb) : Prop where
  columns : ∀ rule ∈ db.rules, ColumnsOk libs rule
  dataSource : ∀ rule ∈ db.rules, rule.dataSourceId ∈ db.sources.map SqlDataSource.id
  ruleIds : (db.rules.map AlertRule.id).Nodup
  sourceIds : (db.sources.map SqlDataSource.id).Nodup
  sourceNames : (db.sources.map SqlDataSource.name).Nodup

/-- `later` is what has become of `rule`. -/
structure Becomes (rule later : AlertRule) : Prop where
  id : later.id = rule.id
  createdAt : later.createdAt = rule.createdAt
  notes : later.notes = rule.notes
  archived : rule.archivedAt.isSome → later.archivedAt.isSome

/-- No rule is lost, and none comes back from the archive. -/
def Kept (before after : RuleDb) : Prop :=
  ∀ rule ∈ before.rules, ∃ later ∈ after.rules, Becomes rule later

variable {φ ι : Type} [DecidableEq ι] {libs : RuleLibraries φ} {requests : ι → Request}
  {s t : State ι} {i : ι} {db db' : RuleDb} {rule row loaded new current : AlertRule}
  {source : SqlDataSource} {values : RuleValues} {times : DateTime × DateTime}
  {request : Request} {phase before : Phase} {outcome : Outcome} {touched : Bool}

theorem Becomes.refl (rule : AlertRule) : Becomes rule rule := ⟨rfl, rfl, rfl, fun h => h⟩

theorem Kept.of_mem (h : ∀ rule ∈ db.rules, rule ∈ db'.rules) : Kept db db' := fun rule hrule =>
  ⟨rule, h rule hrule, .refl rule⟩

theorem Kept.refl (db : RuleDb) : Kept db db := .of_mem fun _ hrule => hrule

theorem Kept.trans {db'' : RuleDb} (h : Kept db db') (h' : Kept db' db'') : Kept db db'' := by
  intro rule hrule
  obtain ⟨mid, hmid, hfirst⟩ := h rule hrule
  obtain ⟨later, hlater, hsecond⟩ := h' mid hmid
  exact ⟨later, hlater, hsecond.id.trans hfirst.id, hsecond.createdAt.trans hfirst.createdAt,
    hsecond.notes.trans hfirst.notes, fun h => hsecond.archived (hfirst.archived h)⟩

theorem columnsOk_of_valid {sources : List SqlDataSource} (h : rule.values.Valid libs sources)
    (htrimmed : rule.values.Trimmed) (hwindow : IsInt64 rule.suppressionWindowHours) :
    ColumnsOk libs rule :=
  ⟨h.queryTimeoutSeconds, h.maxRows, h.sqlText, h.cronExpression, htrimmed, hwindow⟩

theorem ColumnsOk.archived (h : ColumnsOk libs rule) (now : DateTime) :
    ColumnsOk libs { rule with enabled := false, archivedAt := some now, updatedAt := now } :=
  { h with trimmed := ⟨h.trimmed.1, h.trimmed.2, h.trimmed.3⟩ }

theorem emptyDb_tablesOk : TablesOk libs emptyDb where
  columns _ h := by cases h
  dataSource _ h := by cases h
  ruleIds := List.nodup_nil
  sourceIds := List.nodup_nil
  sourceNames := List.nodup_nil

/-! ### The rules -/

theorem TablesOk.insertRule {sources : List SqlDataSource} (h : TablesOk libs db)
    (hvalid : values.Valid libs sources) (htrimmed : values.Trimmed)
    (hok : insertRule db values times = .ok db') : TablesOk libs db' ∧ Kept db db' := by
  obtain ⟨row, hrow, hsource, rfl⟩ := insertRule_eq_ok.mp hok
  have hcolumns : ColumnsOk libs row := by
    refine columnsOk_of_valid (?_ : row.values.Valid libs sources) ?_ hrow.suppressionWindowHours
    · rw [hrow.values]
      exact hvalid
    · rw [hrow.values]
      exact htrimmed
  have hrowSource : row.dataSourceId = values.dataSourceId :=
    congrArg RuleValues.dataSourceId hrow.values
  refine ⟨⟨?_, ?_, ?_, h.sourceIds, h.sourceNames⟩, .of_mem fun rule hrule => ?_⟩
  · intro rule hrule
    rcases List.mem_append.mp hrule with hold | hnew
    · exact h.columns rule hold
    · rw [List.mem_singleton.mp hnew]
      exact hcolumns
  · intro rule hrule
    rcases List.mem_append.mp hrule with hold | hnew
    · exact h.dataSource rule hold
    · rw [List.mem_singleton.mp hnew, hrowSource]
      exact hsource
  · rw [List.map_append, List.nodup_append]
    refine ⟨h.ruleIds, List.nodup_singleton _, ?_⟩
    rintro id hid id' hid' rfl
    rw [List.map_singleton, List.mem_singleton, hrow.id] at hid'
    exact nextId_not_mem _ (hid' ▸ hid)
  · exact List.mem_append_left _ hrule

theorem TablesOk.insertRules {sources : List SqlDataSource} {rules : List RuleValues} :
    ∀ {db : RuleDb} {times : Nat → DateTime × DateTime}, TablesOk libs db →
    (∀ values ∈ rules, values.Valid libs sources ∧ values.Trimmed) →
    insertRules db rules times = .ok db' → TablesOk libs db' ∧ Kept db db' := by
  induction rules with
  | nil =>
      rintro db times h - ⟨⟩
      exact ⟨h, .refl _⟩
  | cons values rules ih =>
      intro db times h hrules hok
      obtain ⟨mid, hmid, hrest⟩ := bind_eq_ok.mp hok
      obtain ⟨hvalid, htrimmed⟩ := hrules values List.mem_cons_self
      obtain ⟨hmidOk, hmidKept⟩ := h.insertRule hvalid htrimmed hmid
      obtain ⟨hend, hendKept⟩ := ih hmidOk (fun v hv => hrules v (List.mem_cons_of_mem _ hv)) hrest
      exact ⟨hend, hmidKept.trans hendKept⟩

theorem replaceRule_ids (db : RuleDb) (row : AlertRule) :
    (replaceRule db row).rules.map AlertRule.id = db.rules.map AlertRule.id := by
  simp only [replaceRule, List.map_map]
  refine List.map_congr_left fun rule _ => ?_
  simp only [Function.comp_apply]
  split
  case isTrue hsame => exact hsame.symm
  case isFalse => rfl

/-- A column after the flush is the written one, or the one that stood there. -/
theorem ColumnsOk.flushRule (hnew : ColumnsOk libs new) (hcurrent : ColumnsOk libs current) :
    ColumnsOk libs (flushRule loaded new current) where
  queryTimeoutSeconds :=
    flushed_elim (p := fun n : Int => 1 ≤ n ∧ n ≤ 600) hnew.queryTimeoutSeconds
      hcurrent.queryTimeoutSeconds
  maxRows :=
    flushed_elim (p := fun n : Int => 1 ≤ n ∧ n ≤ 5000) hnew.maxRows hcurrent.maxRows
  sqlText :=
    flushed_elim (p := fun sql => validateSelectOnlySql libs (.ofString sql) = .ok ())
      hnew.sqlText hcurrent.sqlText
  cronExpression :=
    flushed_elim (p := fun cron => libs.fromCrontab (.ofString cron) = true)
      hnew.cronExpression hcurrent.cronExpression
  trimmed :=
    ⟨flushed_elim (p := fun t => PyText.strip (.ofString t) = .ofString t) hnew.trimmed.1
        hcurrent.trimmed.1,
      flushed_elim (p := fun t => PyText.strip (.ofString t) = .ofString t) hnew.trimmed.2
        hcurrent.trimmed.2,
      flushed_elim (p := fun t => PyText.strip (.ofString t) = .ofString t) hnew.trimmed.3
        hcurrent.trimmed.3⟩
  suppressionWindowHours :=
    flushed_elim hnew.suppressionWindowHours hcurrent.suppressionWindowHours

/-- **The UPDATE of a rule**, over whatever has become of it. -/
theorem TablesOk.writeRule (h : TablesOk libs db) (hnew : ColumnsOk libs new)
    (hnotes : new.notes = loaded.notes)
    (harchived : new.archivedAt = loaded.archivedAt ∨ new.archivedAt.isSome)
    (hok : writeRule db loaded new = .ok db') : TablesOk libs db' ∧ Kept db db' := by
  simp only [RuleProtocol.writeRule] at hok
  split at hok
  case h_1 =>
    split at hok
    case isTrue =>
      cases hok
      exact ⟨h, .refl db⟩
    case isFalse => cases hok
  case h_2 current hfind =>
    have hmem : current ∈ db.rules := List.mem_of_find?_eq_some hfind
    obtain ⟨⟨⟩, hsource, hdone⟩ := bind_eq_ok.mp hok
    cases hdone
    have hrow : ColumnsOk libs (RuleProtocol.flushRule loaded new current) :=
      hnew.flushRule (h.columns current hmem)
    have hbecomes : Becomes current (RuleProtocol.flushRule loaded new current) := by
      refine ⟨rfl, rfl, ?_, fun hsome => ?_⟩
      · exact if_pos hnotes
      · rcases harchived with hsame | hset
        · have hkept : (RuleProtocol.flushRule loaded new current).archivedAt =
              current.archivedAt := if_pos hsame
          rw [hkept]
          exact hsome
        · exact flushed_elim (p := fun time : Option DateTime => time.isSome = true) hset hsome
    refine ⟨⟨?_, ?_, replaceRule_ids db _ ▸ h.ruleIds, h.sourceIds, h.sourceNames⟩, ?_⟩
    · intro rule hrule
      obtain ⟨old, hold, rfl⟩ := List.mem_map.mp hrule
      split
      case isTrue => exact hrow
      case isFalse => exact h.columns old hold
    · intro rule hrule
      obtain ⟨old, hold, rfl⟩ := List.mem_map.mp hrule
      split
      case isTrue => exact checkSource_eq_ok.mp hsource
      case isFalse => exact h.dataSource old hold
    · intro rule hrule
      refine ⟨_, List.mem_map_of_mem hrule, ?_⟩
      split
      case isTrue hid =>
        have hsame : rule = current := List.inj_on_of_nodup_map h.ruleIds hrule hmem hid
        rw [hsame]
        exact hbecomes
      case isFalse => exact .refl rule

/-! ### The data sources -/

/-- The rules do not matter for the keys and the names of the data sources. -/
theorem TablesOk.sourcesInv (h : TablesOk libs db) : Inv libs ⟨db.sources, []⟩ where
  valid _ h := by cases h
  trimmed _ h := by cases h
  window _ h := by cases h
  ruleIds := List.nodup_nil
  sourceIds := h.sourceIds
  sourceNames := h.sourceNames

/-- The data sources change, but not their ids. -/
theorem TablesOk.withSources {sources : List SqlDataSource} (h : TablesOk libs db)
    (hids : db.sources.map SqlDataSource.id ⊆ sources.map SqlDataSource.id)
    (hinv : Inv libs ⟨sources, []⟩) : TablesOk libs { db with sources } :=
  ⟨h.columns, fun rule hrule => hids (h.dataSource rule hrule), h.ruleIds, hinv.sourceIds,
    hinv.sourceNames⟩

theorem replaceSource_ids (sources : List SqlDataSource) (row : SqlDataSource) :
    (sources.map fun other => if other.id = row.id then row else other).map SqlDataSource.id =
      sources.map SqlDataSource.id := by
  rw [List.map_map]
  refine List.map_congr_left fun other _ => ?_
  simp only [Function.comp_apply]
  split
  case isTrue hsame => exact hsame.symm
  case isFalse => rfl

theorem TablesOk.writeSource {loaded new : SqlDataSource} (h : TablesOk libs db)
    (hok : writeSource db loaded new touched = .ok db') : TablesOk libs db' ∧ Kept db db' := by
  simp only [RuleProtocol.writeSource] at hok
  split at hok
  case h_1 =>
    split at hok
    case isTrue =>
      cases hok
      exact ⟨h, .refl _⟩
    case isFalse => cases hok
  case h_2 current _ =>
    obtain ⟨⟨⟩, hname, hdone⟩ := bind_eq_ok.mp hok
    cases hdone
    refine ⟨h.withSources ?_ (h.sourcesInv.replaceSource (checkName_eq_ok.mp hname)),
      .of_mem fun _ hrule => hrule⟩
    rw [replaceSource_ids]
    exact fun _ hid => hid

theorem TablesOk.insertSource {form : DataSourceForm} {values : Int × Int}
    (h : TablesOk libs db) (hok : insertSource db form values = .ok db') :
    TablesOk libs db' ∧ Kept db db' := by
  obtain ⟨_, -, hrest⟩ := bind_eq_ok.mp hok
  obtain ⟨source, hsource, hrest⟩ := bind_eq_ok.mp hrest
  obtain ⟨⟨⟩, hname, hdone⟩ := bind_eq_ok.mp hrest
  have hid := DataSourceForm.store_id hsource
  cases hdone
  refine ⟨⟨h.columns, fun rule hrule => ?_, h.ruleIds, ?_, ?_⟩, .of_mem fun _ hrule => hrule⟩
  · rw [List.map_append]
    exact List.mem_append_left _ (h.dataSource rule hrule)
  · rw [List.map_append, List.nodup_append]
    refine ⟨h.sourceIds, List.nodup_singleton _, ?_⟩
    rintro id hold id' hnew rfl
    rw [List.map_singleton, List.mem_singleton, hid] at hnew
    exact nextId_not_mem _ (hnew ▸ hold)
  · rw [List.map_append, List.nodup_append]
    refine ⟨h.sourceNames, List.nodup_singleton _, ?_⟩
    rintro name hold name' hnew rfl
    rw [List.map_singleton, List.mem_singleton] at hnew
    exact checkName_eq_ok.mp hname (hnew ▸ hold)

/-- **The DELETE of a data source**: the rules that refer to one are in the way. -/
theorem TablesOk.removeSource (h : TablesOk libs db) (hok : removeSource db source = .ok db') :
    TablesOk libs db' ∧ Kept db db' := by
  simp only [RuleProtocol.removeSource] at hok
  split at hok
  case isTrue => cases hok
  case isFalse hfree =>
    cases hok
    refine ⟨⟨h.columns, fun rule hrule => ?_, h.ruleIds,
      h.sourceIds.sublist (List.filter_sublist.map _),
      h.sourceNames.sublist (List.filter_sublist.map _)⟩, .of_mem fun _ hrule => hrule⟩
    obtain ⟨used, hused, hid⟩ := List.mem_map.mp (h.dataSource rule hrule)
    refine List.mem_map.mpr ⟨used, List.mem_filter.mpr ⟨hused, ?_⟩, hid⟩
    have hne : used.id ≠ source.id := by
      intro hsame
      refine hfree ⟨hsame ▸ List.mem_map_of_mem hused, ?_⟩
      exact List.mem_map.mpr ⟨rule, hrule, hid.symm.trans hsame⟩
    simpa using hne

/-! ## What a request has in hand -/

structure LoadedRule (libs : RuleLibraries φ) (ruleId : Int) (rule : AlertRule) : Prop where
  active : rule.archivedAt = none
  int64 : IsInt64 ruleId
  id : (rule.id : Int) = ruleId
  columns : ColumnsOk libs rule

structure LoadedSource (sourceId : Int) (source : SqlDataSource) : Prop where
  int64 : IsInt64 sourceId
  id : (source.id : Int) = sourceId

/-- What a request has read, it has read from the tables as they were at some time. -/
def InHand (libs : RuleLibraries φ) : Request → Phase → Prop
  | _, .idle | _, .finished _ => True
  | .updateRule ruleId _ _, .loadedRule rule | .archiveRule ruleId _, .loadedRule rule =>
      LoadedRule libs ruleId rule
  | .updateSource sourceId _, .loadedSource source | .deleteSource sourceId, .loadedSource source
  | .deleteSource sourceId, .deleting source => LoadedSource sourceId source
  | .createRule form _, .creating values => ∃ sources validated,
      validateRuleForm libs sources form = .ok validated ∧ values = form.values validated []
  | .updateRule ruleId form _, .updating rule validated =>
      LoadedRule libs ruleId rule ∧
        ∃ sources, validateRuleForm libs sources form = .ok validated
  | .importRules _ _, .importing rules => ∃ sources payload,
      buildImportedRules libs sources payload = .ok rules
  | .createSource form, .adding values =>
      parseSqlConnectionValues form.port form.connectTimeoutSeconds = .ok values
  | .updateSource sourceId form, .saving source values =>
      LoadedSource sourceId source ∧
        parseSqlConnectionValues form.port form.connectTimeoutSeconds = .ok values
  | _, _ => False

/-- The request has been accepted. -/
def Phase.Accepted : Phase → Prop
  | .finished (.redirect _) => True
  | _ => False

/-- A step that only reads. -/
structure Reads (libs : RuleLibraries φ) (request : Request) (before phase : Phase) : Prop where
  inHand : InHand libs request phase
  pending : ¬ before.Accepted
  notAccepted : ¬ phase.Accepted

theorem getActiveRule_loaded {ruleId : Int} (h : TablesOk libs db)
    (hrule : getActiveRule db ruleId = .ok rule) : LoadedRule libs ruleId rule := by
  obtain ⟨hmem, hactive⟩ := getActiveRule_eq_ok hrule
  simp only [getActiveRule] at hrule
  split at hrule
  case isTrue hint =>
    split at hrule
    case h_1 => cases hrule
    case h_2 found hfound =>
      split at hrule
      case isTrue => cases hrule
      case isFalse =>
        cases hrule
        exact ⟨hactive, hint, by simpa using List.find?_some hfound, h.columns rule hmem⟩
  case isFalse => cases hrule

theorem getSource_loaded {sources : List SqlDataSource} {sourceId : Int}
    (h : getSource sources sourceId = .ok (some source)) : LoadedSource sourceId source := by
  simp only [getSource] at h
  split at h
  case isTrue hint => exact ⟨hint, by simpa using List.find?_some (Except.ok.inj h)⟩
  case isFalse => cases h

theorem loadRule_cases (ruleId : Int) (h : TablesOk libs db) :
    (∃ outcome, loadRule db ruleId = .finished outcome ∧ ¬ (Phase.finished outcome).Accepted) ∨
      ∃ rule, loadRule db ruleId = .loadedRule rule ∧ LoadedRule libs ruleId rule := by
  simp only [loadRule]
  split
  case h_1 outcome houtcome =>
    refine .inl ⟨outcome, rfl, ?_⟩
    simp only [getActiveRule] at houtcome
    split at houtcome
    case isTrue =>
      split at houtcome
      case h_1 =>
        cases houtcome
        exact id
      case h_2 =>
        split at houtcome
        case isTrue =>
          cases houtcome
          exact id
        case isFalse => cases houtcome
    case isFalse =>
      cases houtcome
      exact id
  case h_2 rule hrule => exact .inr ⟨rule, rfl, getActiveRule_loaded h hrule⟩

theorem loadSource_cases (db : RuleDb) (sourceId : Int) :
    (∃ outcome, loadSource db sourceId = .finished outcome ∧
        ¬ (Phase.finished outcome).Accepted) ∨
      ∃ source, loadSource db sourceId = .loadedSource source ∧ LoadedSource sourceId source := by
  simp only [loadSource]
  split
  case h_1 error _ => exact .inl ⟨.raised error, rfl, id⟩
  case h_2 => exact .inl ⟨.notFound "数据源不存在", rfl, id⟩
  case h_3 source hsource => exact .inr ⟨source, rfl, getSource_loaded hsource⟩

theorem load_reads (hdb : TablesOk libs db) (h : load db request = some phase) :
    Reads libs request .idle phase := by
  have hrule : ∀ ruleId, loadRule db ruleId = phase →
      (∀ rule, LoadedRule libs ruleId rule → InHand libs request (.loadedRule rule)) →
      Reads libs request .idle phase := by
    rintro ruleId rfl hloaded
    obtain ⟨outcome, houtcome, hnot⟩ | ⟨rule, heq, hok⟩ := loadRule_cases ruleId hdb
    · rw [houtcome]
      exact ⟨trivial, id, hnot⟩
    · rw [heq]
      exact ⟨hloaded rule hok, id, id⟩
  have hsource : ∀ sourceId, loadSource db sourceId = phase →
      (∀ source, LoadedSource sourceId source → InHand libs request (.loadedSource source)) →
      Reads libs request .idle phase := by
    rintro sourceId rfl hloaded
    obtain ⟨outcome, houtcome, hnot⟩ | ⟨source, heq, hok⟩ := loadSource_cases db sourceId
    · rw [houtcome]
      exact ⟨trivial, id, hnot⟩
    · rw [heq]
      exact ⟨hloaded source hok, id, id⟩
  cases request with
  | createRule form times => cases h
  | updateRule ruleId form now => exact hrule ruleId (Option.some.inj h) fun _ hok => hok
  | archiveRule ruleId now => exact hrule ruleId (Option.some.inj h) fun _ hok => hok
  | importRules bytes times => cases h
  | createSource form => cases h
  | updateSource sourceId form => exact hsource sourceId (Option.some.inj h) fun _ hok => hok
  | deleteSource sourceId => exact hsource sourceId (Option.some.inj h) fun _ hok => hok

theorem checkForm_cases (libs : RuleLibraries φ) (db : RuleDb) (form : RuleForm)
    (next : ValidatedForm → Phase) :
    (∃ outcome, checkForm libs db form next = .finished outcome ∧
        ¬ (Phase.finished outcome).Accepted) ∨
      ∃ validated, validateRuleForm libs db.sources form = .ok validated ∧
        checkForm libs db form next = next validated := by
  cases hform : validateRuleForm libs db.sources form with
  | ok validated => exact .inr ⟨validated, rfl, by simp only [checkForm, hform]⟩
  | error refusal =>
      refine .inl ⟨.ofRefusal refusal, by simp only [checkForm, hform], ?_⟩
      cases refusal with
      | page error => exact id
      | raised error => exact id

theorem checkImport_cases (libs : RuleLibraries φ) (db : RuleDb) (bytes : ByteArray) :
    (∃ outcome, checkImport libs db bytes = .finished outcome ∧
        ¬ (Phase.finished outcome).Accepted) ∨
      ∃ payload rules, readUpload libs bytes = .payload payload ∧
        buildImportedRules libs db.sources payload = .ok rules ∧
        checkImport libs db bytes = .importing rules := by
  cases hupload : readUpload libs bytes with
  | invalid error => exact .inl ⟨.page error, by simp only [checkImport, hupload], id⟩
  | tooDeep => exact .inl ⟨.raised .recursionError, by simp only [checkImport, hupload], id⟩
  | payload payload =>
      cases hrules : buildImportedRules libs db.sources payload with
      | ok rules =>
          exact .inr ⟨payload, rules, rfl, hrules, by simp only [checkImport, hupload, hrules]⟩
      | error error =>
          cases error with
          | valueError message =>
              exact .inl ⟨.page message, by simp only [checkImport, hupload, hrules], id⟩
          | overflowError =>
              exact .inl ⟨.raised .overflowError, by simp only [checkImport, hupload, hrules], id⟩

theorem checkSourceForm_cases (db : RuleDb) (form : DataSourceForm) (taken : SqlDataSource → Bool)
    (next : Int × Int → Phase) :
    (∃ outcome, checkSourceForm db form taken next = .finished outcome ∧
        ¬ (Phase.finished outcome).Accepted) ∨
      ∃ values existing,
        parseSqlConnectionValues form.port form.connectTimeoutSeconds = .ok values ∧
        findByName db form.name = .ok existing ∧ existing.any taken = false ∧
        checkSourceForm db form taken next = next values := by
  cases hvalues : parseSqlConnectionValues form.port form.connectTimeoutSeconds with
  | error error => exact .inl ⟨.page error, by simp only [checkSourceForm, hvalues], id⟩
  | ok values =>
      cases hname : findByName db form.name with
      | error error =>
          exact .inl ⟨.raised error, by simp only [checkSourceForm, hvalues, hname], id⟩
      | ok existing =>
          cases htaken : existing.any taken with
          | true =>
              refine .inl ⟨.page "数据源名称已存在", ?_, id⟩
              simp only [checkSourceForm, hvalues, hname, htaken, if_true]
          | false =>
              refine .inr ⟨values, existing, rfl, rfl, htaken, ?_⟩
              simp only [checkSourceForm, hvalues, hname, htaken, Bool.false_eq_true, if_false]

theorem checkUnused_cases (db : RuleDb) (source : SqlDataSource) :
    (∃ outcome, checkUnused db source = .finished outcome ∧
        ¬ (Phase.finished outcome).Accepted) ∨ checkUnused db source = .deleting source := by
  simp only [checkUnused]
  split
  case isTrue => exact .inl ⟨_, rfl, id⟩
  case isFalse => exact .inr rfl

theorem check_reads (hbefore : InHand libs request before)
    (h : check libs db request before = some phase) : Reads libs request before phase := by
  have hrefused : ∀ outcome, phase = .finished outcome → ¬ (Phase.finished outcome).Accepted →
      ¬ before.Accepted → Reads libs request before phase := by
    rintro outcome rfl hnot hpending
    exact ⟨by cases request <;> trivial, hpending, hnot⟩
  cases request with
  | createRule form times =>
      cases before with
      | idle =>
          cases h
          obtain ⟨outcome, heq, hnot⟩ | ⟨validated, hform, heq⟩ :=
            checkForm_cases libs db form fun validated => .creating (form.values validated [])
          · exact hrefused outcome heq hnot id
          · rw [heq]
            exact ⟨⟨db.sources, validated, hform, rfl⟩, id, id⟩
      | _ => cases h
  | updateRule ruleId form now =>
      cases before with
      | loadedRule rule =>
          cases h
          obtain ⟨outcome, heq, hnot⟩ | ⟨validated, hform, heq⟩ :=
            checkForm_cases libs db form (.updating rule)
          · exact hrefused outcome heq hnot id
          · rw [heq]
            exact ⟨⟨hbefore, db.sources, hform⟩, id, id⟩
      | _ => cases h
  | archiveRule ruleId now => cases before <;> cases h
  | importRules bytes times =>
      cases before with
      | idle =>
          cases h
          obtain ⟨outcome, heq, hnot⟩ | ⟨payload, rules, -, hrules, heq⟩ :=
            checkImport_cases libs db bytes
          · exact hrefused outcome heq hnot id
          · rw [heq]
            exact ⟨⟨db.sources, payload, hrules⟩, id, id⟩
      | _ => cases h
  | createSource form =>
      cases before with
      | idle =>
          cases h
          obtain ⟨outcome, heq, hnot⟩ | ⟨values, existing, hvalues, -, -, heq⟩ :=
            checkSourceForm_cases db form (fun _ => true) .adding
          · exact hrefused outcome heq hnot id
          · rw [heq]
            exact ⟨hvalues, id, id⟩
      | _ => cases h
  | updateSource sourceId form =>
      cases before with
      | loadedSource source =>
          cases h
          obtain ⟨outcome, heq, hnot⟩ | ⟨values, existing, hvalues, -, -, heq⟩ :=
            checkSourceForm_cases db form (fun existing => existing.id ≠ source.id)
              (.saving source)
          · exact hrefused outcome heq hnot id
          · rw [heq]
            exact ⟨⟨hbefore, hvalues⟩, id, id⟩
      | _ => cases h
  | deleteSource sourceId =>
      cases before with
      | loadedSource source =>
          cases h
          obtain ⟨outcome, heq, hnot⟩ | heq := checkUnused_cases db source
          · exact hrefused outcome heq hnot id
          · rw [heq]
            exact ⟨hbefore, id, id⟩
      | _ => cases h

/-! ## What a transaction writes -/

/-- The transactions that are committed, with the location that is answered. -/
inductive Written (db : RuleDb) (touched : Bool) : Request → Phase → String → RuleDb → Prop
  | createRule {form : RuleForm} {times : DateTime × DateTime} {values : RuleValues}
      {db' : RuleDb} :
      insertRule db values times = .ok db' →
      Written db touched (.createRule form times) (.creating values) "/rules" db'
  | updateRule {ruleId : Int} {form : RuleForm} {now : DateTime} {rule new : AlertRule}
      {validated : ValidatedForm} {db' : RuleDb} :
      RuleVersions.assign rule form validated now = .ok new → writeRule db rule new = .ok db' →
      Written db touched (.updateRule ruleId form now) (.updating rule validated) "/rules" db'
  | archiveRule {ruleId : Int} {now : DateTime} {rule : AlertRule} {db' : RuleDb} :
      writeRule db rule
        { rule with enabled := false, archivedAt := some now, updatedAt := now } = .ok db' →
      Written db touched (.archiveRule ruleId now) (.loadedRule rule) "/rules" db'
  | importRules {bytes : ByteArray} {times : Nat → DateTime × DateTime}
      {rules : List RuleValues} {db' : RuleDb} :
      insertRules db rules times = .ok db' →
      Written db touched (.importRules bytes times) (.importing rules)
        s!"/rules?imported={rules.length}" db'
  | createSource {form : DataSourceForm} {values : Int × Int} {db' : RuleDb} :
      insertSource db form values = .ok db' →
      Written db touched (.createSource form) (.adding values) "/settings" db'
  | updateSource {sourceId : Int} {form : DataSourceForm} {source new : SqlDataSource}
      {values : Int × Int} {db' : RuleDb} :
      assignSource source form values = .ok new → writeSource db source new touched = .ok db' →
      Written db touched (.updateSource sourceId form) (.saving source values) "/settings" db'
  | deleteSource {sourceId : Int} {source : SqlDataSource} {db' : RuleDb} :
      removeSource db source = .ok db' →
      Written db touched (.deleteSource sourceId) (.deleting source) "/settings" db'

theorem commit_written {location : String} {result : Except ServerError RuleDb}
    {answer : Outcome × RuleDb} (h : some (commit db location result) = some answer)
    (hwritten : ∀ db', result = .ok db' → Written db touched request before location db') :
    (∃ error, answer = (.raised error, db)) ∨
      ∃ location db', Written db touched request before location db' ∧
        answer = (.redirect location, db') := by
  obtain ⟨db', hresult, heq⟩ | ⟨error, heq⟩ := commit_cases db location result
  · rw [heq] at h
    exact .inr ⟨location, db', hwritten db' hresult, (Option.some.inj h).symm⟩
  · rw [heq] at h
    exact .inl ⟨error, (Option.some.inj h).symm⟩

theorem write_cases {answer : Outcome × RuleDb}
    (h : write db touched request before = some answer) :
    (∃ error, answer = (.raised error, db)) ∨
      ∃ location db', Written db touched request before location db' ∧
        answer = (.redirect location, db') := by
  cases request with
  | createRule form times =>
      cases before with
      | creating values => exact commit_written h fun _ hok => .createRule hok
      | _ => cases h
  | updateRule ruleId form now =>
      cases before with
      | updating rule validated =>
          refine commit_written h fun db' hok => ?_
          obtain ⟨new, hnew, hwrite⟩ := bind_eq_ok.mp hok
          exact .updateRule hnew hwrite
      | _ => cases h
  | archiveRule ruleId now =>
      cases before with
      | loadedRule rule => exact commit_written h fun _ hok => .archiveRule hok
      | _ => cases h
  | importRules bytes times =>
      cases before with
      | importing rules => exact commit_written h fun _ hok => .importRules hok
      | _ => cases h
  | createSource form =>
      cases before with
      | adding values => exact commit_written h fun _ hok => .createSource hok
      | _ => cases h
  | updateSource sourceId form =>
      cases before with
      | saving source values =>
          refine commit_written h fun db' hok => ?_
          obtain ⟨new, hnew, hwrite⟩ := bind_eq_ok.mp hok
          exact .updateSource hnew hwrite
      | _ => cases h
  | deleteSource sourceId =>
      cases before with
      | deleting source => exact commit_written h fun _ hok => .deleteSource hok
      | _ => cases h

/-- A request that writes has not been answered. -/
theorem Written.pending {location : String} (h : Written db touched request before location db') :
    ¬ before.Accepted := by
  cases h <;> exact id

theorem write_pending {answer : Outcome × RuleDb}
    (h : write db touched request before = some answer) : ¬ before.Accepted := by
  cases before with
  | finished outcome => cases request <;> cases h
  | _ => exact id

/-- **One transaction.** -/
theorem TablesOk.written {location : String} (h : TablesOk libs db)
    (hinHand : InHand libs request before)
    (hwritten : Written db touched request before location db') :
    TablesOk libs db' ∧ Kept db db' := by
  cases hwritten with
  | createRule hok =>
      obtain ⟨sources, validated, hform, rfl⟩ := hinHand
      exact h.insertRule (validateRuleForm_valid hform []) (RuleForm.trimmed _ validated []) hok
  | @updateRule ruleId form now rule new validated db' hnew hok =>
      obtain ⟨hloaded, sources, hform⟩ := hinHand
      have hstored := RuleValues.store_eq_ok.mp hnew
      obtain ⟨-, -, hnotes, -, harchived⟩ := RuleVersions.assign_eq_ok hnew
      have hvalid : new.values.Valid libs sources := by
        rw [hstored.values]
        exact validateRuleForm_valid hform _
      have htrimmed : new.values.Trimmed := by
        rw [hstored.values]
        exact form.trimmed validated _
      exact h.writeRule (columnsOk_of_valid hvalid htrimmed hstored.suppressionWindowHours) hnotes
        (.inl harchived) hok
  | @archiveRule ruleId now rule db' hok =>
      refine h.writeRule (hinHand.columns.archived now) ?_ (.inr rfl) hok
      rfl
  | importRules hok =>
      obtain ⟨sources, payload, hrules⟩ := hinHand
      exact h.insertRules (buildImportedRules_mem hrules) hok
  | createSource hok => exact h.insertSource hok
  | updateSource _ hok => exact h.writeSource hok
  | deleteSource hok => exact h.removeSource hok

/-! ## Runs -/

/-- A step reads, or is answered with an error, or writes. -/
theorem step_cases {label : Label ι} (hdb : TablesOk libs s.db)
    (hphase : ∀ i, InHand libs (requests i) (s.phase i))
    (h : step libs requests s label = some t) :
    (∃ i phase, Reads libs (requests i) (s.phase i) phase ∧ t = s.enter i phase) ∨
      ∃ i touched location db', label = .write i touched ∧
        Written s.db touched (requests i) (s.phase i) location db' ∧
        t = { s.enter i (.finished (.redirect location)) with db := db' } := by
  cases label with
  | load i =>
      simp only [step] at h
      split at h
      case h_1 hidle =>
        obtain ⟨phase, hload, rfl⟩ := Option.map_eq_some_iff.mp h
        exact .inl ⟨i, phase, hidle ▸ load_reads hdb hload, rfl⟩
      case h_2 => cases h
  | check i =>
      obtain ⟨phase, hcheck, rfl⟩ := Option.map_eq_some_iff.mp h
      exact .inl ⟨i, phase, check_reads (hphase i) hcheck, rfl⟩
  | write i touched =>
      obtain ⟨answer, hwrite, rfl⟩ := Option.map_eq_some_iff.mp h
      obtain ⟨error, rfl⟩ | ⟨location, db', hwritten, rfl⟩ := write_cases hwrite
      · refine .inl ⟨i, .finished (.raised error), ⟨?_, write_pending hwrite, id⟩, rfl⟩
        cases requests i <;> trivial
      · exact .inr ⟨i, touched, location, db', rfl, hwritten, rfl⟩

structure StateOk (libs : RuleLibraries φ) (requests : ι → Request) (s : State ι) : Prop where
  tables : TablesOk libs s.db
  inHand : ∀ i, InHand libs (requests i) (s.phase i)

omit [DecidableEq ι] in
theorem start_ok : StateOk libs requests (start ι) :=
  ⟨emptyDb_tablesOk, fun i => by cases requests i <;> trivial⟩

theorem inHand_enter (h : ∀ i, InHand libs (requests i) (s.phase i))
    (hphase : InHand libs (requests i) phase) :
    ∀ j, InHand libs (requests j) ((s.enter i phase).phase j) := by
  intro j
  rcases eq_or_ne j i with rfl | hj
  · simpa only [State.enter, Function.update_self] using hphase
  · simpa only [State.enter, Function.update_of_ne hj] using h j

/-- **One step.** -/
theorem StateOk.step {label : Label ι} (h : StateOk libs requests s)
    (hstep : step libs requests s label = some t) :
    StateOk libs requests t ∧ Kept s.db t.db := by
  obtain ⟨i, phase, hreads, rfl⟩ | ⟨i, touched, location, db', rfl, hwritten, rfl⟩ :=
    step_cases h.tables h.inHand hstep
  · exact ⟨⟨h.tables, inHand_enter h.inHand hreads.inHand⟩, .refl _⟩
  · obtain ⟨htables, hkept⟩ := h.tables.written (h.inHand i) hwritten
    refine ⟨⟨htables, inHand_enter h.inHand ?_⟩, hkept⟩
    cases requests i <;> trivial

theorem StateOk.run {labels : List (Label ι)} (h : StateOk libs requests s)
    (hrun : fire (RuleProtocol.step libs requests) s labels = some t) :
    StateOk libs requests t ∧ Kept s.db t.db := by
  refine fire_invariant (I := fun t => StateOk libs requests t ∧ Kept s.db t.db) ?_ ⟨h, .refl _⟩
    hrun
  rintro u label v ⟨hu, hkept⟩ hstep
  obtain ⟨hv, hnext⟩ := hu.step hstep
  exact ⟨hv, hkept.trans hnext⟩

/-- In whatever order the steps of the requests come: every rule refers to a data source that is
there, its columns are all valid, the ids and the names of the data sources are unique, no rule
is ever lost, and none comes back from the archive. -/
theorem shared_tables {labels more : List (Label ι)}
    (hrun : fire (step libs requests) (start ι) labels = some s)
    (hmore : fire (step libs requests) s more = some t) :
    TablesOk libs t.db ∧ Kept s.db t.db := by
  obtain ⟨hs, -⟩ := start_ok.run hrun
  obtain ⟨ht, hkept⟩ := hs.run hmore
  exact ⟨ht.tables, hkept⟩

/-! ## Two forms -/

/-- A data source, a rule that sends one mail for each row, and two edits of it: the first one
names a field with the recipients, the second one makes it a summary. -/
def fourRequests : Fin 4 → Request :=
  ![.createSource (sourceForm "main"),
    .createRule { ruleForm with sendMode := .ofString "per_row" } (0, 0),
    .updateRule 1
      { ruleForm with
        sendMode := .ofString "per_row"
        dynamicRecipientField := .ofString "owner" } 1,
    .updateRule 1 ruleForm 2]

/-- The data source and the rule are there. -/
def created : List (Label (Fin 4)) := [.check 0, .write 0 true, .check 1, .write 1 true]

/-- What is left of the rules after these steps, and the answers to the two edits. -/
def rulesAfter (labels : List (Label (Fin 4))) :
    Option (List (SendMode × String) × Phase × Phase) :=
  (fire (step plainLibraries fourRequests) (start (Fin 4)) labels).map fun s =>
    (s.db.rules.map fun rule => (rule.sendMode, rule.dynamicRecipientField), s.phase 2, s.phase 3)

/-- Both edits load the rule before either writes.  The tables are in order, and both edits are
accepted, but the rule is a summary with a field for the recipients, which no form can make it. -/
theorem mixed_forms :
    ∃ s t, fire (step plainLibraries fourRequests) (start (Fin 4)) created = some s ∧
      fire (step plainLibraries fourRequests) s
        [.load 2, .load 3, .check 2, .check 3, .write 2 true, .write 3 true] = some t ∧
      (TablesOk plainLibraries t.db ∧ Kept s.db t.db) ∧
      t.phase 2 = .finished (.redirect "/rules") ∧ t.phase 3 = .finished (.redirect "/rules") ∧
      ∃ rule ∈ t.db.rules, ¬ RuleOk plainLibraries t.db.sources rule := by
  have hafter : rulesAfter (created ++
      [.load 2, .load 3, .check 2, .check 3, .write 2 true, .write 3 true]) =
      some ([(.summary, "owner")], .finished (.redirect "/rules"),
        .finished (.redirect "/rules")) := by
    decide +kernel
  obtain ⟨t, hrun, hleft⟩ := Option.map_eq_some_iff.mp hafter
  obtain ⟨s, hcreated, hmore⟩ := fire_append.mp hrun
  simp only [Prod.mk.injEq] at hleft
  obtain ⟨hrules, hfirst, hsecond⟩ := hleft
  have hmem : (SendMode.summary, "owner") ∈
      t.db.rules.map fun rule => (rule.sendMode, rule.dynamicRecipientField) :=
    hrules ▸ List.mem_singleton_self _
  obtain ⟨rule, hrule, hvalues⟩ := List.mem_map.mp hmem
  simp only [Prod.mk.injEq] at hvalues
  refine ⟨s, t, hcreated, hmore, shared_tables hcreated hmore, hfirst, hsecond, rule, hrule,
    fun hok => ?_⟩
  have hnone := hok.summary hvalues.1
  rw [hvalues.2] at hnone
  exact absurd hnone (by decide)

end EarlyWarning.RuleProtocol
