/-
# `InitDb` — what a start of the program promises about the database

`init_db` brings an old database up to date and leaves everything else in it alone
(`Upgraded`), a second start changes nothing, and a start that fails, wherever it does, leaves
the database as it was.
-/
import EarlyWarning.SchemaUpgrade

namespace EarlyWarning.Migration

open Lib Lib.Sqlite Lib.Connection

/-! ## The transaction -/

section Transaction

variable {db db' : Database} {c : Connection Database InitError}

/-- What is done in the transaction is what is committed. -/
theorem initDb_ok (h : Does (do createAll; migrateSqliteSchema) db () db') :
    exec initDb ⟨db, none, []⟩ = (.ok (), ⟨db', none, []⟩) := by
  unfold initDb withConnection
  have hbegin : exec (begin : Migrate Unit) ⟨db, none, []⟩ = (.ok (), ⟨db, some db, []⟩) := rfl
  have htrip : exec (trip : Migrate Unit) ⟨db, none, []⟩ = (.ok (), ⟨db, none, []⟩) := rfl
  rw [exec_bind, exec_tryCatch, exec_bind, htrip]
  dsimp only
  rw [exec_bind, hbegin]
  dsimp only
  rw [exec_bind, exec_tryCatch, h db]
  rfl

/-- A read that fails or not leaves the databases alone. -/
theorem wp_trip : wp (trip : Migrate Unit)
    (fun _ c' => c'.committed = c.committed ∧ c'.working = c.working)
    (fun _ c' => c'.committed = c.committed ∧ c'.working = c.working) c := by
  unfold trip
  rw [wp_bind, wp_get]
  split <;> exact ⟨rfl, rfl⟩

theorem confined_statement (f : Database → Except SqlError Database) : Confined (statement f) :=
  confined_execute _

theorem confined_createModelTable (m : ModelTable) : Confined (createModelTable m) :=
  (confined_statement _).bind fun _ => confined_forM (fun _ => confined_statement _) _

theorem confined_createAll : Confined createAll := by
  refine (confined_inspect _).bind fun names => confined_forM (fun m => ?_) _
  split
  · exact confined_pure
  · exact confined_createModelTable m

theorem confined_addColumns (tableNames : List String) (table : String) :
    Confined (addColumns tableNames table) := by
  unfold addColumns
  split
  · refine (confined_inspect _).bind fun existing => confined_forM (fun column => ?_) _
    split
    · exact confined_pure
    · exact confined_statement _
  · exact confined_pure

theorem confined_cleanSmtpConfig (tableNames : List String) :
    Confined (cleanSmtpConfig tableNames) := by
  unfold cleanSmtpConfig
  split
  · exact (confined_statement _).bind fun _ => confined_statement _
  · exact confined_pure

theorem confined_checkWorkerHeartbeat (tableNames : List String) :
    Confined (checkWorkerHeartbeat tableNames) := by
  unfold checkWorkerHeartbeat
  split
  · refine (confined_inspect _).bind fun existing => ?_
    dsimp only
    split
    · exact confined_pure
    · exact confined_throw
  · exact confined_pure

theorem confined_createLogIndexes (tableNames : List String) :
    Confined (createLogIndexes tableNames) := by
  unfold createLogIndexes
  split
  · exact confined_forM (fun _ => confined_statement _) _
  · exact confined_pure

theorem confined_dedupeSuppressions (tableNames : List String) :
    Confined (dedupeSuppressions tableNames) := by
  unfold dedupeSuppressions
  split
  · exact (confined_statement _).bind fun _ => confined_statement _
  · exact confined_pure

theorem confined_migrateSqliteSchema : Confined migrateSqliteSchema := by
  refine (confined_inspect _).bind fun names => ?_
  refine (confined_addColumns names "adminuser").bind fun _ => ?_
  refine (confined_addColumns names "sqldatasource").bind fun _ => ?_
  refine (confined_addColumns names "alertrule").bind fun _ => ?_
  refine (confined_cleanSmtpConfig names).bind fun _ => ?_
  refine (confined_checkWorkerHeartbeat names).bind fun _ => ?_
  refine (confined_createLogIndexes names).bind fun _ => ?_
  exact confined_dedupeSuppressions names

/-- **All or nothing**: a start that raises has committed nothing, and no transaction is left
waiting. -/
theorem initDb_raises (db : Database) (faults : List (Option InitError)) :
    wp initDb (fun _ _ => True) (fun _ c => c.committed = db ∧ c.working = none)
      ⟨db, none, faults⟩ := by
  unfold initDb withConnection
  rw [wp_bind, wp_tryCatch]
  refine wp_mono (Q := fun _ _ => True) (E := fun _ c => c.committed = db) ?_
    (fun _ _ _ => trivial) (fun _ _ h => ⟨h, rfl⟩)
  rw [wp_bind]
  refine wp_mono wp_trip (fun _ c₁ h₁ => ?_) fun _ _ h => h.1
  rw [wp_bind, begin, wp_bind]
  refine wp_mono wp_trip (fun _ c₂ h₂ => ?_) fun _ _ h => h.1.trans h₁.1
  rw [wp_modify, wp_bind, wp_tryCatch]
  have hbody : Confined (do createAll; migrateSqliteSchema) :=
    confined_createAll.bind fun _ => confined_migrateSqliteSchema
  refine wp_mono (hbody _ rfl) (fun _ c₃ h₃ => ?_) fun e c₃ h₃ => ?_
  · rw [commit, wp_bind]
    refine wp_mono wp_trip (fun _ _ _ => trivial) fun _ _ h => ?_
    exact h.1.trans (h₃.1.trans (h₂.1.trans h₁.1))
  · have hcommitted : c₃.committed = db := h₃.1.trans (h₂.1.trans h₁.1)
    dsimp only
    split
    · exact hcommitted
    · exact hcommitted

end Transaction

/-! ## A second start -/

section Again

variable {db db' : Database} {t : Table} {name : String}

/-- The tables to be repaired have what the repair needs. -/
theorem Legacy.repairable (h : Legacy db) (hname : name ∈ ["smtpconfig", "alertsuppression"])
    (ht : (db.tables.setDefaults modelEntries).get? name = some t) : IdKey t := by
  rcases of_get?_setDefaults_model ht with hold | ⟨m, -, -, rfl⟩
  · exact h.ids name hname t hold
  · exact ⟨List.nodup_nil, fun r hr => by cases hr⟩

theorem Legacy.enabled_mem (h : Legacy db)
    (ht : (db.tables.setDefaults modelEntries).get? "smtpconfig" = some t) :
    "enabled" ∈ t.names := by
  rcases of_get?_setDefaults_model ht with hold | ⟨m, hm, hname, rfl⟩
  · exact h.complete (m := smtpConfig) (by simp [modelTables]) hold rfl (by decide)
  · have hsmtp : m = smtpConfig := List.inj_on_of_nodup_map nodup_modelNames hm
      (by simp [modelTables]) hname
    rw [hsmtp]
    exact mem_names_empty.mpr (by decide)

/-- An upgraded table needs no upgrade. -/
theorem upgradeTable_upgradeTable (h : Legacy db)
    (ht : (db.tables.setDefaults modelEntries).get? name = some t) :
    upgradeTable name (upgradeTable name t) = upgradeTable name t := by
  by_cases hsmtp : name = "smtpconfig"
  · subst hsmtp
    rw [upgradeTable_smtpConfig]
    exact keepLastEnabled_keepLastEnabled (h.repairable (by decide) ht) (h.enabled_mem ht)
  · by_cases hsuppression : name = "alertsuppression"
    · subst hsuppression
      rw [upgradeTable_alertSuppression]
      exact keepNewest_keepNewest (h.repairable (by decide) ht)
    · rw [upgradeTable_of_columns hsmtp hsuppression]
      exact Table.addColumns_of_subset fun c hc =>
        Table.mem_names_addColumns.mpr (.inr (List.mem_map_of_mem hc))

theorem upgradeTables_eq_self {tables : OrderedDict String Table}
    (h : ∀ name t, tables.get? name = some t → upgradeTable name t = t) :
    upgradeTables tables = tables := by
  have hfold : ∀ names : List String,
      names.foldl (fun tables name => tables.adjust name (upgradeTable name)) tables = tables := by
    intro names
    induction names with
    | nil => rfl
    | cons name names ih =>
        rw [List.foldl_cons, OrderedDict.adjust_eq_self (h name)]
        exact ih
  exact hfold upgradedNames

/-- **The migration is idempotent.** -/
theorem migrate_again (h : Legacy db) (hready : ∃ names, Ready names db')
    (htables : db'.tables = upgradeTables (db.tables.setDefaults modelEntries))
    (hindexes : db'.indexes =
      db.indexes.setDefaults (createdIndexes db.tables ++ migrationIndexes)) :
    Does (do createAll; migrateSqliteSchema) db' () db' := by
  obtain ⟨names, hready⟩ := hready
  obtain ⟨db'', hdoes, -, htables', hindexes'⟩ := migrate_does hready.legacy
  have hthere : db'.tables.setDefaults modelEntries = db'.tables := by
    refine OrderedDict.setDefaults_eq_self fun e he => ?_
    obtain ⟨m, hm, rfl⟩ := List.mem_map.mp he
    exact Option.isSome_iff_exists.mpr (hready.there m hm)
  have hcreated : createdIndexes db'.tables = [] := by
    unfold createdIndexes
    rw [List.filter_eq_nil_iff.mpr fun m hm => ?_]
    · rfl
    · simpa using OrderedDict.mem_keys.mpr (hready.there m hm)
  have hsame : db'' = db' := by
    refine Database.ext ?_ ?_
    · rw [htables', hthere]
      refine upgradeTables_eq_self fun name t' ht' => ?_
      rw [htables, get?_upgradeTables] at ht'
      obtain ⟨t, ht, rfl⟩ := Option.map_eq_some_iff.mp ht'
      exact upgradeTable_upgradeTable h ht
    · rw [hindexes', hcreated, List.nil_append]
      refine OrderedDict.setDefaults_eq_self fun e he => ?_
      rw [hindexes]
      exact OrderedDict.isSome_setDefaults (List.mem_append_right _ he)
  exact hsame ▸ hdoes

end Again

/-! ## What has become of the old rows -/

/-- A row of the table `t` and what it is after the migration. -/
structure RowUpgraded (name : String) (t : Table) (r r' : Row) : Prop where
  /-- its values are the same, but an enabled configuration that is not the last one is disabled -/
  kept : ∀ column ∈ t.names, r'.get? column = r.get? column ∨
    (name = "smtpconfig" ∧ column = "enabled" ∧ Enabled r ∧
      (∃ s ∈ t.rows, Enabled s ∧ recency r < recency s) ∧
      r'.get? column = some (.number 0))
  /-- a column that the table did not have has the default that its model declares -/
  added : ∀ m ∈ modelTables, m.name = name → ∀ c ∈ m.columns, c.name ∉ t.names →
    ∃ v, c.default = some v ∧ r'.get? c.name = some v

/-- An old table and what it is after the migration. -/
structure TableUpgraded (name : String) (t t' : Table) : Prop where
  /-- the rows that are left are those before, but for suppressions that a newer one of their
  rule and key duplicates -/
  rows : ∃ kept, kept.Sublist t.rows ∧ List.Forall₂ (RowUpgraded name t) kept t'.rows ∧
    ∀ r ∈ t.rows, r ∉ kept → name = "alertsuppression" ∧
      ∃ s ∈ kept, suppressionOf s = suppressionOf r ∧ r.value "id" < s.value "id"
  columns : ∀ column, column ∈ t'.names ↔
    column ∈ t.names ∨ column ∈ (columnsToAdd name).map Column.name
  other : name ∉ upgradedNames → t' = t

/-- A legacy database and what it is after the migration. -/
structure Upgraded (db db' : Database) : Prop where
  /-- every column of the models is there -/
  complete : ∀ m ∈ modelTables, ∃ t', db'.tables.get? m.name = some t' ∧
    ∀ column ∈ m.names, column ∈ t'.names
  tables : ∀ name t, db.tables.get? name = some t →
    ∃ t', db'.tables.get? name = some t' ∧ TableUpgraded name t t'
  /-- a new table is one of the models', without rows -/
  new : ∀ name t', db'.tables.get? name = some t' → db.tables.get? name = none →
    (∃ m ∈ modelTables, m.name = name) ∧ t'.rows = []
  /-- at most one configuration is enabled -/
  single : ∀ t', db'.tables.get? "smtpconfig" = some t' →
    (t'.rows.filter fun r => Enabled r).length ≤ 1
  /-- it is the last one that was, by `updated_at` and then by `id` -/
  greatest : ∀ t t', db.tables.get? "smtpconfig" = some t →
    db'.tables.get? "smtpconfig" = some t' → (∃ r ∈ t.rows, Enabled r) →
    ∃ best ∈ t.rows, Enabled best ∧ (∀ r ∈ t.rows, Enabled r → recency r ≤ recency best) ∧
      t'.rows.filter (fun r => Enabled r) = [best]
  unique : ∀ t', db'.tables.get? "alertsuppression" = some t' →
    (t'.rows.map suppressionOf).Nodup
  indexes : ∀ e ∈ migrationIndexes, db'.indexes.get? e.1 = some e.2
  keptIndexes : ∀ name index, db.indexes.get? name = some index →
    db'.indexes.get? name = some index

section Upgrade

variable {db db' : Database} {t : Table} {m : ModelTable} {name : String} {r : Row}

theorem rowUpgraded_refl (hcolumns : ∀ m ∈ modelTables, m.name = name →
    ∀ column ∈ m.names, column ∈ t.names) : RowUpgraded name t r r where
  kept := fun _ _ => .inl rfl
  added := fun m hm hname c hc hnew =>
    absurd (hcolumns m hm hname c.name (List.mem_map_of_mem hc)) hnew

/-- A configuration is disabled when a later one is enabled too. -/
theorem keepLastEnabled_upgraded (hkey : IdKey t) (henabled : "enabled" ∈ t.names)
    (hcolumns : ∀ m ∈ modelTables, m.name = "smtpconfig" → ∀ column ∈ m.names, column ∈ t.names) :
    List.Forall₂ (RowUpgraded "smtpconfig" t) t.rows (keepLastEnabled t).rows := by
  by_cases hsome : ∃ r ∈ t.rows, Enabled r
  · obtain ⟨best, hbest, hbest', hmax, houtdated, -⟩ := keepLastEnabled_spec hkey henabled hsome
    unfold keepLastEnabled
    rw [Table.rows_update henabled, List.forall₂_map_right_iff, List.forall₂_same]
    intro r hr
    split
    case isTrue hout =>
      obtain ⟨henabled', hne⟩ := (houtdated r hr).mp hout
      have hlt : recency r < recency best := by
        refine lt_of_le_of_ne (hmax r hr henabled') fun heq => hne ?_
        have hid : r.value "id" = best.value "id" := congrArg (fun x => (ofLex x).2) heq
        exact List.inj_on_of_nodup_map hkey.distinct hr hbest hid
      refine ⟨fun column _ => ?_, fun m hm hname c hc hnew =>
        absurd (hcolumns m hm hname c.name (List.mem_map_of_mem hc)) hnew⟩
      by_cases hcolumn : column = "enabled"
      · subst hcolumn
        exact .inr ⟨rfl, rfl, henabled', ⟨best, hbest, hbest', hlt⟩, OrderedDict.get?_set_self⟩
      · exact .inl (OrderedDict.get?_set_ne hcolumn)
    case isFalse => exact rowUpgraded_refl hcolumns
  · rw [keepLastEnabled_of_none fun r hr hr' => hsome ⟨r, hr, hr'⟩]
    exact List.forall₂_same.mpr fun r _ => rowUpgraded_refl hcolumns

/-- A suppression goes when a newer one has its rule and key. -/
theorem keepNewest_gone (hkey : IdKey t) (hr : r ∈ t.rows) (hgone : r ∉ (keepNewest t).rows) :
    ∃ s ∈ (keepNewest t).rows, suppressionOf s = suppressionOf r ∧
      r.value "id" < s.value "id" := by
  obtain ⟨s, hs, hgroup⟩ : ∃ s ∈ (keepNewest t).rows, suppressionOf s = suppressionOf r :=
    exists_greatest hkey.distinct hr
  obtain ⟨hs', hmax⟩ := (mem_keepGroupMaxima hkey.distinct).mp hs
  refine ⟨s, hs, hgroup, lt_of_le_of_ne (hmax r hr hgroup.symm) fun heq => hgone ?_⟩
  rw [List.inj_on_of_nodup_map hkey.distinct hr hs' heq]
  exact hs

/-- A row with the new columns. -/
theorem addColumns_upgraded (h : Legacy db) (ht : db.tables.get? name = some t) :
    List.Forall₂ (RowUpgraded name t) t.rows (t.addColumns (columnsToAdd name)).rows := by
  obtain ⟨extend, hrows, hextend⟩ := Table.rows_addColumns (columnsToAdd_ok name).1 t
  rw [hrows, List.forall₂_map_right_iff, List.forall₂_same]
  refine fun r _ => ⟨fun column hcolumn => .inl ((hextend r).1 column hcolumn), ?_⟩
  rintro m hm rfl c hc hnew
  rcases h.columns m hm t ht c.name (List.mem_map_of_mem hc) with hold | hadded
  · exact absurd hold hnew
  · obtain ⟨a, ha, hname⟩ := List.mem_map.mp hadded
    refine ⟨a.default, columnsToAdd_default m hm c hc a ha hname, ?_⟩
    have hvalue := (hextend r).2 a ha (hname ▸ hnew)
    rwa [hname] at hvalue

theorem tableUpgraded (h : Legacy db) (ht : db.tables.get? name = some t) :
    TableUpgraded name t (upgradeTable name t) := by
  have ht' : (db.tables.setDefaults modelEntries).get? name = some t :=
    OrderedDict.setDefaults_of_get? ht
  have hcolumns : columnsToAdd name = [] → ∀ m ∈ modelTables, m.name = name →
      ∀ column ∈ m.names, column ∈ t.names := by
    rintro hadd m hm rfl column hcolumn
    exact h.complete hm ht hadd hcolumn
  have hother : name ∉ upgradedNames → upgradeTable name t = t := fun hname =>
    upgradeTable_of_not_mem hname t
  by_cases hsmtp : name = "smtpconfig"
  · subst hsmtp
    rw [upgradeTable_smtpConfig] at hother ⊢
    refine ⟨⟨t.rows, List.Sublist.refl _, ?_, fun r hr hgone => absurd hr hgone⟩, fun column => ?_,
      hother⟩
    · exact keepLastEnabled_upgraded (h.repairable (by decide) ht') (h.enabled_mem ht')
        (hcolumns rfl)
    · unfold keepLastEnabled
      rw [Table.names_update]
      exact (or_iff_left (by simp [columnsToAdd])).symm
  · by_cases hsuppression : name = "alertsuppression"
    · subst hsuppression
      rw [upgradeTable_alertSuppression] at hother ⊢
      refine ⟨⟨(keepNewest t).rows, newestSuppressions_sublist t.rows, ?_, fun r hr hgone => ?_⟩,
        fun column => (or_iff_left (by simp [columnsToAdd])).symm, hother⟩
      · exact List.forall₂_same.mpr fun r _ => rowUpgraded_refl (hcolumns rfl)
      · exact ⟨rfl, keepNewest_gone (h.repairable (by decide) ht') hr hgone⟩
    · rw [upgradeTable_of_columns hsmtp hsuppression] at hother ⊢
      exact ⟨⟨t.rows, List.Sublist.refl _, addColumns_upgraded h ht,
        fun r hr hgone => absurd hr hgone⟩, fun column => Table.mem_names_addColumns, hother⟩

/-- A table without rows stays without. -/
theorem rows_upgradeTable_empty (h : t.rows = []) : (upgradeTable name t).rows = [] := by
  unfold upgradeTable
  split
  · unfold keepLastEnabled
    rw [Table.update_eq_self fun r hr => ?_]
    · exact h
    · rw [h] at hr
      cases hr
  · split
    · exact List.sublist_nil.mp (h ▸ newestSuppressions_sublist t.rows)
    · obtain ⟨extend, hrows, -⟩ := Table.rows_addColumns (columnsToAdd_ok name).1 t
      rw [hrows, h]
      rfl

/-- **What the migration does to a legacy database.** -/
theorem upgraded (h : Legacy db) (hready : ∃ names, Ready names db')
    (htables : db'.tables = upgradeTables (db.tables.setDefaults modelEntries))
    (hindexes : db'.indexes =
      db.indexes.setDefaults (createdIndexes db.tables ++ migrationIndexes)) :
    Upgraded db db' := by
  obtain ⟨names, hready⟩ := hready
  have hget : ∀ {name t'}, db'.tables.get? name = some t' →
      ∃ t, (db.tables.setDefaults modelEntries).get? name = some t ∧ t' = upgradeTable name t := by
    intro name t' ht'
    rw [htables, get?_upgradeTables] at ht'
    obtain ⟨t, ht, rfl⟩ := Option.map_eq_some_iff.mp ht'
    exact ⟨t, ht, rfl⟩
  refine ⟨fun m hm => ?_, fun name t ht => ?_, fun name t' ht' hnone => ?_, fun t' ht' => ?_,
    fun t t' ht ht' hsome => ?_, fun t' ht' => ?_, fun e he => ?_, fun name index hindex => ?_⟩
  · obtain ⟨t', ht'⟩ := hready.there m hm
    refine ⟨t', ht', fun column hcolumn => ?_⟩
    rcases hready.legacy.columns m hm t' ht' column hcolumn with hthere | hadded
    · exact hthere
    · obtain ⟨t, ht, rfl⟩ := hget ht'
      by_cases hadd : columnsToAdd m.name = []
      · rw [hadd] at hadded
        cases hadded
      · have hne : ∀ name, columnsToAdd name = [] → m.name ≠ name := by
          rintro name hnone rfl
          exact hadd hnone
        rw [upgradeTable_of_columns (hne _ rfl) (hne _ rfl)]
        exact Table.mem_names_addColumns.mpr (.inr hadded)
  · refine ⟨upgradeTable name t, ?_, tableUpgraded h ht⟩
    rw [htables, get?_upgradeTables, OrderedDict.setDefaults_of_get? ht]
    rfl
  · obtain ⟨t, ht, rfl⟩ := hget ht'
    rcases of_get?_setDefaults_model ht with hold | ⟨m, hm, hname, rfl⟩
    · rw [hnone] at hold
      cases hold
    · exact ⟨⟨m, hm, hname⟩, rows_upgradeTable_empty rfl⟩
  · obtain ⟨t, ht, rfl⟩ := hget ht'
    rw [upgradeTable_smtpConfig]
    exact single_keepLastEnabled (h.repairable (by decide) ht) (h.enabled_mem ht)
  · obtain ⟨t₁, ht₁, rfl⟩ := hget ht'
    rw [OrderedDict.setDefaults_of_get? ht] at ht₁
    cases ht₁
    have hstart : (db.tables.setDefaults modelEntries).get? "smtpconfig" = some t :=
      OrderedDict.setDefaults_of_get? ht
    obtain ⟨best, hbest, hbest', hmax, -, hone⟩ := keepLastEnabled_spec
      (h.repairable (by decide) hstart) (h.enabled_mem hstart) hsome
    rw [upgradeTable_smtpConfig]
    exact ⟨best, hbest, hbest', hmax, hone⟩
  · obtain ⟨t, ht, rfl⟩ := hget ht'
    rw [upgradeTable_alertSuppression]
    exact nodup_keepNewest (h.repairable (by decide) ht)
  · have hsome := OrderedDict.isSome_setDefaults (d := db.indexes)
      (List.mem_append_right (createdIndexes db.tables) he)
    obtain ⟨index, hindex⟩ := Option.isSome_iff_exists.mp hsome
    rw [← hindexes] at hindex
    rw [hindex, hready.legacy.indexes e (List.mem_append_right _ he) index hindex]
  · rw [hindexes]
    exact OrderedDict.setDefaults_of_get? hindex

end Upgrade

/-! ## The contract -/

/-- **What `init_db` promises**: of a legacy database, if nothing fails, that it succeeds, that
a second start changes nothing, and what has become of the tables; of any database, if anything
fails, that it is as it was. -/
theorem init_db_contract (db : Database) :
    (Legacy db → ∃ db',
      exec initDb ⟨db, none, []⟩ = (.ok (), ⟨db', none, []⟩) ∧
      exec initDb ⟨db', none, []⟩ = (.ok (), ⟨db', none, []⟩) ∧ Upgraded db db') ∧
    ∀ faults e c, exec initDb ⟨db, none, faults⟩ = (.error e, c) →
      c.committed = db ∧ c.working = none := by
  constructor
  · intro h
    obtain ⟨db', hdoes, hready, htables, hindexes⟩ := migrate_does h
    exact ⟨db', initDb_ok hdoes, initDb_ok (migrate_again h hready htables hindexes),
      upgraded h hready htables hindexes⟩
  · intro faults e c hrun
    have hkept := wp_error (initDb_raises db faults) hrun
    exact hkept

/-! ## A database of an early version

It has three tables: the administrators without `session_version`, two enabled configurations
of the same time, and two rows for one suppression. -/

section Early

def oldRow (pairs : List (String × Value)) : Row := .ofPairs pairs

def oldColumns (names : List String) : List Column :=
  names.map fun name => { name, notNull := true }

def oldAdminUser : Table where
  columns := oldColumns ["id", "username", "password_hash", "created_at"]
  rows := [oldRow [("id", .number 1), ("username", .text "admin"),
    ("password_hash", .text "legacy-hash"), ("created_at", .text "2026-01-01 00:00:00")]]
  aligned := by decide +kernel

def oldConfig (id : Rat) : Row :=
  oldRow [("id", .number id), ("host", .text "smtp.example.com"), ("port", .number 587),
    ("username", .text ""), ("encrypted_password", .text ""), ("sender", .text ""),
    ("use_tls", .number 1), ("use_ssl", .number 0), ("timeout_seconds", .number 10),
    ("enabled", .number 1), ("updated_at", .text "2026-01-01 00:00:00")]

def oldSmtpConfig : Table where
  columns := oldColumns smtpConfig.names
  rows := [oldConfig 1, oldConfig 2]
  aligned := by decide +kernel

def oldSuppression (id : Rat) : Row :=
  oldRow [("id", .number id), ("rule_id", .number 1), ("suppression_key", .text "k"),
    ("first_seen_at", .text "2026-01-01 00:00:00"), ("last_seen_at", .text "2026-01-01 00:00:00"),
    ("hit_count", .number 1)]

def oldAlertSuppression : Table where
  columns := oldColumns alertSuppression.names
  rows := [oldSuppression 1, oldSuppression 2]
  aligned := by decide +kernel

def oldDb : Database where
  tables := .ofPairs [("adminuser", oldAdminUser), ("smtpconfig", oldSmtpConfig),
    ("alertsuppression", oldAlertSuppression)]
  indexes := .empty
  sound := fun _ _ h => by cases h

theorem oldDb_legacy : Legacy oldDb where
  columns := by
    show ∀ m ∈ modelTables, ∀ t ∈ oldDb.tables.get? m.name, ∀ c ∈ m.names,
      c ∈ t.names ∨ c ∈ (columnsToAdd m.name).map Column.name
    decide +kernel
  ids := by
    show ∀ name ∈ ["smtpconfig", "alertsuppression"], ∀ t ∈ oldDb.tables.get? name, IdKey t
    decide +kernel
  indexes := fun _ _ _ h => by cases h
  smtpIndexes := fun _ _ h => by cases h

theorem init_db_contract_oldDb :
    ∃ db', exec initDb ⟨oldDb, none, []⟩ = (.ok (), ⟨db', none, []⟩) ∧
      exec initDb ⟨db', none, []⟩ = (.ok (), ⟨db', none, []⟩) ∧ Upgraded oldDb db' :=
  (init_db_contract oldDb).1 oldDb_legacy

end Early

end EarlyWarning.Migration
