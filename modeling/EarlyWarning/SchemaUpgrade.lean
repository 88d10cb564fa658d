/-
# `SchemaUpgrade` — what the migration makes of an old database

Statement by statement the migration comes down to two equations, one for the tables
(`upgradeTables`) and one for the indexes.  That a second start changes nothing is then that
both are idempotent, and what happened to the old rows is read off table by table.

A database is `Legacy` when a version of this program has made it: a table that is there lacks
at most the columns that the migration adds, the ids of the repaired tables are their primary
keys, and an index under one of the program's names is the program's.
-/
import EarlyWarning.Migration
import EarlyWarning.Lib.Locally

namespace EarlyWarning.Migration

open Lib Lib.Sqlite Lib.Connection

/-! ## The repairs of single tables -/

/-- The `id` of a table is its primary key. -/
structure IdKey (t : Table) : Prop where
  distinct : (t.rows.map fun r => r.value "id").Nodup
  notNull : ∀ r ∈ t.rows, r.value "id" ≠ .null

instance (t : Table) : Decidable (IdKey t) :=
  decidable_of_iff ((t.rows.map fun r => r.value "id").Nodup ∧
      ∀ r ∈ t.rows, r.value "id" ≠ .null)
    ⟨fun h => ⟨h.1, h.2⟩, fun h => ⟨h.distinct, h.notNull⟩⟩

/-- The `UPDATE` of `smtpconfig`. -/
def keepLastEnabled (t : Table) : Table := t.update "enabled" (.number 0) (outdated t)

/-- The `DELETE` of `alertsuppression`. -/
def keepNewest (t : Table) : Table :=
  t.keep (newestSuppressions t.rows) (newestSuppressions_sublist t.rows)

section Repairs

variable {t : Table} {r s best : Row}

theorem outdated_iff : outdated t r = true ↔ Enabled r ∧ r.value "id" ≠ .null ∧
    lastEnabledId t ≠ .null ∧ r.value "id" ≠ lastEnabledId t := by
  unfold outdated
  rw [decide_eq_true_eq]

theorem not_enabled_set : ¬Enabled (OrderedDict.set r "enabled" (.number 0)) := by
  unfold Enabled Row.value
  rw [OrderedDict.get?_set_self]
  decide

/-- Without an enabled configuration none is outdated. -/
theorem outdated_of_none (h : ∀ r ∈ t.rows, ¬Enabled r) : ∀ r ∈ t.rows, outdated t r = false := by
  intro r hr
  rw [Bool.eq_false_iff]
  exact fun houtdated => h r hr (outdated_iff.mp houtdated).1

/-- The configurations that stay enabled are the enabled ones that are not outdated. -/
theorem filter_enabled_keepLastEnabled (henabled : "enabled" ∈ t.names) :
    (keepLastEnabled t).rows.filter (fun r => Enabled r) =
      t.rows.filter fun r => Enabled r ∧ ¬outdated t r := by
  unfold keepLastEnabled
  rw [Table.rows_update henabled, List.filter_map]
  have hsame : ∀ r ∈ t.rows.filter (fun r => Enabled r ∧ ¬outdated t r),
      (if outdated t r then OrderedDict.set r "enabled" (.number 0) else r) = r := by
    intro r hr
    have hr' := (List.mem_filter.mp hr).2
    simp only [decide_eq_true_eq] at hr'
    exact if_neg hr'.2
  refine Eq.trans ?_ ((List.map_congr_left hsame).trans (List.map_id' _))
  congr 1
  refine List.filter_congr fun r _ => ?_
  by_cases h : outdated t r = true
  · simp [h, not_enabled_set]
  · simp [h]

/-- The one of the enabled configurations that is left: the last in the order of `updated_at`
and `id`. -/
theorem keepLastEnabled_spec (hkey : IdKey t) (henabled : "enabled" ∈ t.names)
    (hsome : ∃ r ∈ t.rows, Enabled r) :
    ∃ best ∈ t.rows, Enabled best ∧ (∀ r ∈ t.rows, Enabled r → recency r ≤ recency best) ∧
      (∀ r ∈ t.rows, outdated t r = true ↔ Enabled r ∧ r ≠ best) ∧
      (keepLastEnabled t).rows.filter (fun r => Enabled r) = [best] := by
  obtain ⟨r₀, hr₀, henabled₀⟩ := hsome
  cases hfirst : firstDescending recency (t.rows.filter fun r => Enabled r) with
  | none =>
      have hmem : r₀ ∈ t.rows.filter fun r => Enabled r :=
        List.mem_filter.mpr ⟨hr₀, decide_eq_true henabled₀⟩
      rw [firstDescending_eq_none.mp hfirst] at hmem
      cases hmem
  | some best =>
      obtain ⟨hbest, hmax⟩ := firstDescending_spec hfirst
      obtain ⟨hbest, hbestEnabled⟩ := List.mem_filter.mp hbest
      have hbestEnabled : Enabled best := of_decide_eq_true hbestEnabled
      have hlast : lastEnabledId t = best.value "id" := by
        unfold lastEnabledId
        rw [hfirst]
        rfl
      have houtdated : ∀ r ∈ t.rows, outdated t r = true ↔ Enabled r ∧ r ≠ best := by
        intro r hr
        rw [outdated_iff, hlast]
        refine ⟨fun h => ⟨h.1, fun heq => h.2.2.2 (heq ▸ rfl)⟩, fun h => ?_⟩
        refine ⟨h.1, hkey.notNull r hr, hkey.notNull best hbest, fun heq => h.2 ?_⟩
        exact List.inj_on_of_nodup_map hkey.distinct hr hbest heq
      refine ⟨best, hbest, hbestEnabled, fun r hr hr' => ?_, houtdated, ?_⟩
      · exact hmax r (List.mem_filter.mpr ⟨hr, decide_eq_true hr'⟩)
      · rw [filter_enabled_keepLastEnabled henabled]
        refine eq_singleton_of_nodup ((List.Nodup.of_map _ hkey.distinct).filter _) ?_ ?_
        · refine List.mem_filter.mpr ⟨hbest, decide_eq_true ⟨hbestEnabled, fun h => ?_⟩⟩
          exact ((houtdated best hbest).mp h).2 rfl
        · intro r hr
          obtain ⟨hr, hr'⟩ := List.mem_filter.mp hr
          obtain ⟨henabled, hnot⟩ := of_decide_eq_true hr'
          by_contra hne
          exact hnot ((houtdated r hr).mpr ⟨henabled, hne⟩)

theorem keepLastEnabled_of_none (h : ∀ r ∈ t.rows, ¬Enabled r) : keepLastEnabled t = t :=
  Table.update_eq_self (outdated_of_none h)

/-- At most one configuration is left enabled. -/
theorem single_keepLastEnabled (hkey : IdKey t) (henabled : "enabled" ∈ t.names) :
    ((keepLastEnabled t).rows.filter fun r => Enabled r).length ≤ 1 := by
  by_cases hsome : ∃ r ∈ t.rows, Enabled r
  · obtain ⟨best, -, -, -, -, hone⟩ := keepLastEnabled_spec hkey henabled hsome
    rw [hone]
    exact le_refl 1
  · have hnone : ∀ r ∈ t.rows, ¬Enabled r := fun r hr hr' => hsome ⟨r, hr, hr'⟩
    rw [keepLastEnabled_of_none hnone, List.filter_eq_nil_iff.mpr fun r hr => by
      simpa using hnone r hr]
    exact Nat.zero_le 1

/-- The new index allows a table with one enabled configuration. -/
theorem not_clash_smtpSingleEnabled
    (h : (t.rows.filter fun r => Enabled r).length ≤ 1) :
    t.rows.Pairwise fun r s => ¬smtpSingleEnabled.2.Clash r s := by
  have hnone : (t.rows.filter fun r => Enabled r).Pairwise fun _ _ => False := by
    match t.rows.filter fun r => Enabled r, h with
    | [], _ => exact List.Pairwise.nil
    | [r], _ => exact List.pairwise_singleton _ _
  refine (List.pairwise_filter.mp hnone).imp fun {r s} hfalse hclash => ?_
  have hcovers : ∀ {q : Row}, smtpSingleEnabled.2.Covers q → Enabled q := fun hq =>
    hq ("enabled", .number 1) rfl
  exact hfalse (decide_eq_true (hcovers hclash.1)) (decide_eq_true (hcovers hclash.2.1))

/-- The ids stay. -/
theorem IdKey.keepLastEnabled (hkey : IdKey t) (henabled : "enabled" ∈ t.names) :
    IdKey (keepLastEnabled t) := by
  have hid : ∀ r : Row, Row.value (if outdated t r then OrderedDict.set r "enabled" (.number 0)
      else r) "id" = r.value "id" := by
    intro r
    split
    · unfold Row.value
      rw [OrderedDict.get?_set_ne (by decide)]
    · rfl
  unfold Migration.keepLastEnabled
  constructor
  · rw [Table.rows_update henabled, List.map_map]
    exact (List.map_congr_left fun r _ => hid r) ▸ hkey.distinct
  · rw [Table.rows_update henabled]
    intro r hr
    obtain ⟨s, hs, rfl⟩ := List.mem_map.mp hr
    rw [hid]
    exact hkey.notNull s hs

/-- The repaired table needs no repair. -/
theorem keepLastEnabled_keepLastEnabled (hkey : IdKey t) (henabled : "enabled" ∈ t.names) :
    keepLastEnabled (keepLastEnabled t) = keepLastEnabled t := by
  refine Table.update_eq_self fun r hr => ?_
  rw [Bool.eq_false_iff]
  intro houtdated
  have hnames : "enabled" ∈ (keepLastEnabled t).names := by
    unfold keepLastEnabled
    rwa [Table.names_update]
  have hr' : r ∈ (keepLastEnabled t).rows.filter fun r => Enabled r :=
    List.mem_filter.mpr ⟨hr, decide_eq_true (outdated_iff.mp houtdated).1⟩
  obtain ⟨best, hbest, hbest', -, hother, -⟩ := keepLastEnabled_spec
    (hkey.keepLastEnabled henabled) hnames ⟨r, hr, (outdated_iff.mp houtdated).1⟩
  have hone := single_keepLastEnabled hkey henabled
  have hbest'' : best ∈ (keepLastEnabled t).rows.filter fun r => Enabled r :=
    List.mem_filter.mpr ⟨hbest, decide_eq_true hbest'⟩
  refine ((hother r hr).mp houtdated).2 ?_
  match (keepLastEnabled t).rows.filter (fun r => Enabled r), hone, hr', hbest'' with
  | [q], _, hr', hbest'' =>
      rw [List.mem_singleton.mp hr', List.mem_singleton.mp hbest'']

theorem IdKey.keepNewest (hkey : IdKey t) : IdKey (keepNewest t) where
  distinct := hkey.distinct.sublist ((newestSuppressions_sublist t.rows).map _)
  notNull := fun r hr => hkey.notNull r ((newestSuppressions_sublist t.rows).subset hr)

theorem nodup_keepNewest (hkey : IdKey t) : ((keepNewest t).rows.map suppressionOf).Nodup :=
  nodup_keepGroupMaxima hkey.distinct

/-- The new index allows a table with one row of each rule and key. -/
theorem not_clash_suppressionUnique (h : (t.rows.map suppressionOf).Nodup) :
    t.rows.Pairwise fun r s => ¬suppressionUnique.2.Clash r s := by
  refine (List.pairwise_map.mp h).imp fun {r s} hne hclash => hne ?_
  have hkey : [r.value "rule_id", r.value "suppression_key"] =
      [s.value "rule_id", s.value "suppression_key"] := hclash.2.2.1
  simp only [List.cons.injEq, and_true] at hkey
  exact Prod.ext hkey.1 hkey.2

theorem keepNewest_keepNewest (hkey : IdKey t) : keepNewest (keepNewest t) = keepNewest t :=
  Table.ext rfl (keepGroupMaxima_eq_self (nodup_keepNewest hkey))

end Repairs

/-! ## The two equations -/

/-- What the migration does to a table that is there. -/
def upgradeTable (name : String) (t : Table) : Table :=
  if name = "smtpconfig" then keepLastEnabled t
  else if name = "alertsuppression" then keepNewest t
  else t.addColumns (columnsToAdd name)

/-- In the order of the program. -/
def upgradedNames : List String :=
  ["adminuser", "sqldatasource", "alertrule", "smtpconfig", "alertsuppression"]

def upgradeTables (tables : OrderedDict String Table) : OrderedDict String Table :=
  upgradedNames.foldl (fun tables name => tables.adjust name (upgradeTable name)) tables

def ModelTable.empty (m : ModelTable) : Table := .new (m.columns.map ModelColumn.ddl)

def modelEntries : List (String × Table) := modelTables.map fun m => (m.name, m.empty)

/-- The indexes of the tables that are absent. -/
def createdIndexes (tables : OrderedDict String Table) : List (String × Index) :=
  (modelTables.filter fun m => m.name ∉ tables.keys).flatMap ModelTable.indexes

def migrationIndexes : List (String × Index) :=
  smtpSingleEnabled :: logIndexes ++ [suppressionUnique]

def programIndexes : List (String × Index) :=
  modelTables.flatMap ModelTable.indexes ++ migrationIndexes

theorem upgradeTable_of_not_mem {name : String} (h : name ∉ upgradedNames) (t : Table) :
    upgradeTable name t = t := by
  simp only [upgradedNames, List.mem_cons, List.not_mem_nil, or_false, not_or] at h
  obtain ⟨hadmin, hsource, hrule, hsmtp, hsuppression⟩ := h
  have hnone : columnsToAdd name = [] := by
    unfold columnsToAdd
    split
    · exact absurd rfl hadmin
    · exact absurd rfl hsource
    · exact absurd rfl hrule
    · rfl
  rw [upgradeTable, if_neg hsmtp, if_neg hsuppression, hnone]
  rfl

theorem upgradeTable_of_columns {name : String} (hsmtp : name ≠ "smtpconfig")
    (hsuppression : name ≠ "alertsuppression") :
    upgradeTable name = fun t => t.addColumns (columnsToAdd name) :=
  funext fun t => by rw [upgradeTable, if_neg hsmtp, if_neg hsuppression]

theorem upgradeTable_smtpConfig : upgradeTable "smtpconfig" = keepLastEnabled :=
  funext fun _ => if_pos rfl

theorem upgradeTable_alertSuppression : upgradeTable "alertsuppression" = keepNewest :=
  funext fun _ => (if_neg (by decide)).trans (if_pos rfl)

/-- Every table is upgraded on its own. -/
theorem get?_upgradeTables {tables : OrderedDict String Table} {name : String} :
    (upgradeTables tables).get? name = (tables.get? name).map (upgradeTable name) := by
  obtain ⟨-, hmem, hframe⟩ : True ∧
      (∀ name ∈ upgradedNames,
        (upgradeTables tables).get? name = (tables.get? name).map (upgradeTable name)) ∧
      ∀ name ∉ upgradedNames, (upgradeTables tables).get? name = tables.get? name :=
    foldl_locally (fun (tables : OrderedDict String Table) name => tables.get? name)
      (fun name (before after : Option Table) => after = before.map (upgradeTable name))
      (I := fun _ => True)
      (fun _ _ _ _ => trivial) (fun _ _ _ _ => OrderedDict.get?_adjust_self)
      (fun _ _ _ _ _ hne => OrderedDict.get?_adjust_ne hne) (by decide) trivial
  by_cases h : name ∈ upgradedNames
  · exact hmem name h
  · refine (hframe name h).trans ?_
    rw [show upgradeTable name = id from funext (upgradeTable_of_not_mem h), Option.map_id]
    rfl

/-! ## The constants of the program -/

theorem nodup_modelNames : (modelTables.map ModelTable.name).Nodup := by decide

/-- The indexes of a model are on its table. -/
theorem modelIndexes_own : ∀ m ∈ modelTables, (m.indexes.map Prod.fst).Nodup ∧
    ∀ e ∈ m.indexes, e.2.table = m.name ∧ (∀ c ∈ e.2.columns, c ∈ m.names) ∧
      e.2.only = none := by decide

/-- A name stands for one index. -/
theorem programIndexes_functional :
    ∀ e ∈ programIndexes, ∀ e' ∈ programIndexes, e.1 = e'.1 → e.2 = e'.2 := by
  decide +kernel

theorem programIndexes_smtp : ∀ e ∈ programIndexes, e.2.table = "smtpconfig" →
    e.2 = smtpSingleEnabled.2 := by decide +kernel

/-- The log indexes are on tables that no column is added to. -/
theorem logIndexes_own : ∀ e ∈ logIndexes, e.2.unique = false ∧ e.2.only = none ∧
    ∃ m ∈ modelTables, m.name = e.2.table ∧ columnsToAdd m.name = [] ∧
      ∀ c ∈ e.2.columns, c ∈ m.names := by decide

theorem columnsToAdd_ok (name : String) : ((columnsToAdd name).map Column.name).Nodup ∧
    ∀ c ∈ columnsToAdd name, c.notNull = true → c.default ≠ .null := by
  unfold columnsToAdd
  split <;> decide

/-- **The defaults agree**: an added column has the default that its model declares. -/
theorem columnsToAdd_default : ∀ m ∈ modelTables, ∀ c ∈ m.columns, ∀ a ∈ columnsToAdd m.name,
    a.name = c.name → c.default = some a.default := by decide +kernel

/-! ## Old databases -/

/-- What bears the name of one of the program's indexes is this index. -/
def Known (db : Database) : Prop :=
  ∀ e ∈ programIndexes, ∀ index, db.indexes.get? e.1 = some index → index = e.2

/-- The database is one that a version of the program has made. -/
structure Legacy (db : Database) : Prop where
  /-- a table lacks at most the columns that the migration adds -/
  columns : ∀ m ∈ modelTables, ∀ t, db.tables.get? m.name = some t →
    ∀ c ∈ m.names, c ∈ t.names ∨ c ∈ (columnsToAdd m.name).map Column.name
  ids : ∀ name ∈ ["smtpconfig", "alertsuppression"], ∀ t, db.tables.get? name = some t → IdKey t
  indexes : Known db
  /-- no other index makes the configurations differ -/
  smtpIndexes : ∀ name index, db.indexes.get? name = some index → index.table = "smtpconfig" →
    index.unique = true → index = smtpSingleEnabled.2

section Legacy

variable {db db' : Database} {t t' : Table} {m : ModelTable} {name c : String}

theorem mem_names_empty : c ∈ m.empty.names ↔ c ∈ m.names := by
  simp [ModelTable.empty, Table.names, Table.new, ModelTable.names, ModelColumn.ddl]

/-- Tables that have been extended or created, and indexes of the program, leave a database
legacy. -/
theorem Legacy.preserved (h : Legacy db)
    (htables : ∀ name t', db'.tables.get? name = some t' →
      (∃ t, db.tables.get? name = some t ∧ (∀ c ∈ t.names, c ∈ t'.names) ∧
        (name ∈ ["smtpconfig", "alertsuppression"] → IdKey t → IdKey t')) ∨
      ∃ m ∈ modelTables, m.name = name ∧ t' = m.empty)
    (hindexes : ∀ name index, db'.indexes.get? name = some index →
      db.indexes.get? name = some index ∨ (name, index) ∈ programIndexes) : Legacy db' where
  columns := fun m hm t' ht' c hc => by
    rcases htables m.name t' ht' with ⟨t, ht, hnames, -⟩ | ⟨m', hm', hname, rfl⟩
    · exact (h.columns m hm t ht c hc).imp_left (hnames c)
    · obtain rfl : m' = m := List.inj_on_of_nodup_map nodup_modelNames hm' hm hname
      exact .inl (mem_names_empty.mpr hc)
  ids := fun name hname t' ht' => by
    rcases htables name t' ht' with ⟨t, ht, -, hkey⟩ | ⟨m, -, -, rfl⟩
    · exact hkey hname (h.ids name hname t ht)
    · exact ⟨List.nodup_nil, fun r hr => by cases hr⟩
  indexes := fun e he index hindex => by
    rcases hindexes e.1 index hindex with hold | hnew
    · exact h.indexes e he index hold
    · exact programIndexes_functional _ hnew e he rfl
  smtpIndexes := fun name index hindex htable hunique => by
    rcases hindexes name index hindex with hold | hnew
    · exact h.smtpIndexes name index hold htable hunique
    · exact programIndexes_smtp _ hnew htable

/-- A table without columns to add has all columns of its model. -/
theorem Legacy.complete (h : Legacy db) (hm : m ∈ modelTables)
    (ht : db.tables.get? m.name = some t) (hadd : columnsToAdd m.name = []) (hc : c ∈ m.names) :
    c ∈ t.names := by
  rcases h.columns m hm t ht c hc with hthere | hadded
  · exact hthere
  · rw [hadd] at hadded
    cases hadded

/-- A table that is upgraded keeps its columns. -/
theorem mem_names_upgradeTable (h : c ∈ t.names) : c ∈ (upgradeTable name t).names := by
  unfold upgradeTable
  split
  · unfold keepLastEnabled
    rwa [Table.names_update]
  · split
    · exact h
    · exact Table.mem_names_addColumns.mpr (.inl h)

end Legacy

/-! ## The program, phase by phase -/

section Phases

variable {db db' : Database} {t : Table} {m : ModelTable} {name : String}
  {tableNames : List String} {e : String × Index}

theorem does_statement {f : Database → Except SqlError Database} (h : f db = .ok db') :
    Does (statement f) db () db' := does_execute (by rw [h]; rfl)

/-- `CREATE INDEX IF NOT EXISTS` on a table that allows the index. -/
theorem createIndexIfNotExists_ok (ht : db.tables.get? e.2.table = some t) (h : e.2.Sound t) :
    ∃ db', Database.createIndexIfNotExists e.1 e.2 db = .ok db' ∧ db'.tables = db.tables ∧
      db'.indexes = db.indexes.setDefault e.1 e.2 := by
  unfold Database.createIndexIfNotExists OrderedDict.setDefault
  split
  · exact ⟨db, rfl, rfl, rfl⟩
  · exact Database.addIndex_ok ht h

/-- The loop over the indexes of a new table: `rest` are to be created on what is now `db'`. -/
structure Indexing (m : ModelTable) (db : Database) (rest : List (String × Index))
    (db' : Database) : Prop where
  tables : db'.tables = db.tables
  indexes : db'.indexes.setDefaults rest = db.indexes.setDefaults m.indexes
  free : ∀ e ∈ rest, e ∈ m.indexes ∧ db'.indexes.get? e.1 = none
  nodup : (rest.map Prod.fst).Nodup

theorem Indexing.step {rest : List (String × Index)} (hm : m ∈ modelTables)
    (ht : db.tables.get? m.name = some m.empty) (h : Indexing m db (e :: rest) db') :
    ∃ db'', Does (statement (Database.createIndex e.1 e.2)) db' ⟨⟩ db'' ∧
      Indexing m db rest db'' := by
  obtain ⟨he, hnone⟩ := h.free e List.mem_cons_self
  obtain ⟨htable, hcolumns, honly⟩ := (modelIndexes_own m hm).2 e he
  obtain ⟨hnew, hnodup⟩ := List.nodup_cons.mp h.nodup
  have ht' : db'.tables.get? e.2.table = some m.empty := by
    rw [h.tables, htable, ht]
  have hsound : e.2.Sound m.empty := Index.sound_new
    (fun c hc => mem_names_empty.mpr (hcolumns c hc)) (by simp [honly])
  obtain ⟨db'', hadd, htables, hindexes⟩ : ∃ db'', Database.addIndex e.1 e.2 db' = .ok db'' ∧
      db''.tables = db'.tables ∧ db''.indexes = db'.indexes.set e.1 e.2 :=
    Database.addIndex_ok ht' hsound
  have hcreate : Database.createIndex e.1 e.2 db' = .ok db'' := by
    unfold Database.createIndex
    rw [hnone]
    exact hadd
  refine ⟨db'', does_statement hcreate, htables.trans h.tables, ?_, fun e' he' => ?_, hnodup⟩
  · rw [hindexes, ← h.indexes]
    show _ = (db'.indexes.setDefault e.1 e.2).setDefaults rest
    rw [OrderedDict.setDefault, hnone]
    rfl
  · obtain ⟨hmem, hnone'⟩ := h.free e' (List.mem_cons_of_mem e he')
    have hne : e'.1 ≠ e.1 := fun heq => hnew (heq ▸ List.mem_map_of_mem he')
    rw [hindexes, OrderedDict.get?_set_ne hne]
    exact ⟨hmem, hnone'⟩

/-- An absent table is created with its indexes. -/
theorem createModelTable_does (hm : m ∈ modelTables) (habsent : db.tables.get? m.name = none)
    (hknown : Known db) : ∃ db', Does (createModelTable m) db () db' ∧
      db'.tables = db.tables.setDefault m.name m.empty ∧
      db'.indexes = db.indexes.setDefaults m.indexes := by
  obtain ⟨db₁, hcreate, htables, hsame⟩ :
      ∃ db₁, Database.createTable m.name (m.columns.map ModelColumn.ddl) db = .ok db₁ ∧
        db₁.tables = db.tables.set m.name m.empty ∧ db₁.indexes = db.indexes :=
    Database.createTable_ok habsent
  have ht : db₁.tables.get? m.name = some m.empty := by
    rw [htables, OrderedDict.get?_set_self]
  obtain ⟨hnodup, hown⟩ := modelIndexes_own m hm
  -- an index under one of the names would be on the absent table
  have hfree : ∀ e ∈ m.indexes, db.indexes.get? e.1 = none := by
    intro e he
    cases hindex : db.indexes.get? e.1 with
    | none => rfl
    | some index =>
        obtain rfl := hknown e (List.mem_append_left _ (List.mem_flatMap.mpr ⟨m, hm, he⟩))
          index hindex
        obtain ⟨t, ht, -⟩ := db.sound e.1 e.2 hindex
        rw [(hown e he).1, habsent] at ht
        cases ht
  have hstart : Indexing m db₁ m.indexes db₁ :=
    ⟨rfl, rfl, fun e he => ⟨he, by rw [hsame, hfree e he]⟩, hnodup⟩
  obtain ⟨db', hloop, hend⟩ := does_forM (I := Indexing m db₁) (fun _ _ _ h => h.step hm ht)
    hstart
  refine ⟨db', (does_statement hcreate).bind hloop, ?_, ?_⟩
  · rw [hend.tables, htables, OrderedDict.setDefault, habsent]
    rfl
  · rw [← hsame]
    exact hend.indexes

/-- The loop of `create_all`: `rest` are still to be looked at, and the database is `db'`. -/
structure Creating (db : Database) (rest : List ModelTable) (db' : Database) : Prop where
  tables : db'.tables.setDefaults (rest.map fun m => (m.name, m.empty)) =
    db.tables.setDefaults modelEntries
  indexes : db'.indexes.setDefaults
      ((rest.filter fun m => m.name ∉ db.tables.keys).flatMap ModelTable.indexes) =
    db.indexes.setDefaults (createdIndexes db.tables)
  there : ∀ m ∈ rest, m ∈ modelTables ∧ (m.name ∈ db.tables.keys ↔ m.name ∈ db'.tables.keys)
  nodup : (rest.map ModelTable.name).Nodup
  known : Known db'

theorem Creating.step {rest : List ModelTable} (h : Creating db (m :: rest) db') :
    ∃ db'', Does (if m.name ∈ db.tables.keys then pure () else createModelTable m) db' ⟨⟩ db'' ∧
      Creating db rest db'' := by
  obtain ⟨htables, hindexes, hthere, hnodup, hknown⟩ := h
  obtain ⟨hm, hhere⟩ := hthere m List.mem_cons_self
  obtain ⟨hnew, hnodup⟩ := List.nodup_cons.mp hnodup
  have hlater : ∀ m' ∈ rest, m' ∈ modelTables ∧
      (m'.name ∈ db.tables.keys ↔ m'.name ∈ db'.tables.keys) := fun m' hm' =>
    hthere m' (List.mem_cons_of_mem m hm')
  by_cases hmem : m.name ∈ db.tables.keys
  · rw [if_pos hmem]
    obtain ⟨t, ht⟩ := OrderedDict.mem_keys.mp (hhere.mp hmem)
    refine ⟨db', does_pure, ?_, ?_, hlater, hnodup, hknown⟩
    · rw [← htables]
      show _ = (db'.tables.setDefault m.name m.empty).setDefaults _
      rw [OrderedDict.setDefault, ht]
      rfl
    · rw [List.filter_cons_of_neg (by simpa using hmem)] at hindexes
      exact hindexes
  · rw [if_neg hmem]
    have habsent : db'.tables.get? m.name = none :=
      OrderedDict.get?_eq_none_iff_not_mem.mpr fun h => hmem (hhere.mpr h)
    obtain ⟨db'', hdoes, htables', hindexes'⟩ := createModelTable_does hm habsent hknown
    refine ⟨db'', hdoes, ?_, ?_, fun m' hm' => ?_, hnodup, fun e he index hindex => ?_⟩
    · rw [htables', ← htables]
      rfl
    · rw [List.filter_cons_of_pos (by simpa using hmem), List.flatMap_cons,
        OrderedDict.setDefaults_append] at hindexes
      rw [hindexes', ← hindexes]
    · obtain ⟨hmodel, hiff⟩ := hlater m' hm'
      have hne : m'.name ≠ m.name := fun heq => hnew (heq ▸ List.mem_map_of_mem hm')
      refine ⟨hmodel, hiff.trans ?_⟩
      rw [OrderedDict.mem_keys, OrderedDict.mem_keys, htables', OrderedDict.get?_setDefault,
        if_neg hne, Option.or_none]
    · rw [hindexes'] at hindex
      rcases OrderedDict.of_get?_setDefaults hindex with hold | hmine
      · exact hknown e he index hold
      · exact programIndexes_functional _
          (List.mem_append_left _ (List.mem_flatMap.mpr ⟨m, hm, hmine⟩)) e he rfl

/-- The tables that are absent are created. -/
theorem createAll_does (hknown : Known db) : ∃ db', Does createAll db () db' ∧
    db'.tables = db.tables.setDefaults modelEntries ∧
    db'.indexes = db.indexes.setDefaults (createdIndexes db.tables) := by
  have hstart : Creating db modelTables db :=
    ⟨rfl, rfl, fun m hm => ⟨hm, Iff.rfl⟩, nodup_modelNames, hknown⟩
  obtain ⟨db', hloop, hend⟩ := does_forM (I := Creating db) (fun _ _ _ h => h.step) hstart
  exact ⟨db', (does_inspect _).bind hloop, hend.tables, hend.indexes⟩

theorem getColumns_does (ht : db.tables.get? name = some t) :
    Does (getColumns name) db t.names db := by
  have hdoes : Does (getColumns name) db (((db.tables.get? name).map Table.names).getD []) db :=
    does_inspect fun db : Database => ((db.tables.get? name).map Table.names).getD []
  rwa [ht] at hdoes

/-- The loop over the columns of one table, which is `t` before it. -/
structure Adding (name : String) (t : Table) (db : Database) (rest : List Column)
    (db' : Database) : Prop where
  tables : db'.tables.adjust name (fun t => t.addColumns rest) =
    db.tables.adjust name (fun t => t.addColumns (columnsToAdd name))
  indexes : db'.indexes = db.indexes
  there : ∃ t', db'.tables.get? name = some t' ∧
    ∀ c ∈ rest, c ∈ columnsToAdd name ∧ (c.name ∈ t.names ↔ c.name ∈ t'.names)
  nodup : (rest.map Column.name).Nodup

theorem Adding.step {c : Column} {rest : List Column} (h : Adding name t db (c :: rest) db') :
    ∃ db'', Does (if c.name ∈ t.names then pure () else
        statement (Database.alterTableAddColumn name c)) db' ⟨⟩ db'' ∧
      Adding name t db rest db'' := by
  obtain ⟨htables, hindexes, ⟨t', ht', hthere⟩, hnodup⟩ := h
  obtain ⟨hc, hhere⟩ := hthere c List.mem_cons_self
  obtain ⟨hnew, hnodup⟩ := List.nodup_cons.mp hnodup
  have hlater : ∀ c' ∈ rest, c' ∈ columnsToAdd name ∧
      (c'.name ∈ t.names ↔ c'.name ∈ t'.names) := fun c' hc' =>
    hthere c' (List.mem_cons_of_mem c hc')
  rw [OrderedDict.adjust_of_get? ht'] at htables
  by_cases hmem : c.name ∈ t.names
  · rw [if_pos hmem]
    have hsame : t'.addColumns (c :: rest) = t'.addColumns rest := by
      show (t'.addColumn c).addColumns rest = _
      rw [Table.addColumn_of_mem (hhere.mp hmem)]
    refine ⟨db', does_pure, ?_, hindexes, ⟨t', ht', hlater⟩, hnodup⟩
    rw [OrderedDict.adjust_of_get? ht', ← htables, hsame]
  · rw [if_neg hmem]
    obtain ⟨db'', halter, htables', hindexes'⟩ := Database.alterTableAddColumn_ok ht'
      (fun h => hmem (hhere.mpr h)) ((columnsToAdd_ok name).2 c hc)
    have ht'' : db''.tables.get? name = some (t'.addColumn c) := by
      rw [htables', OrderedDict.get?_set_self]
    refine ⟨db'', does_statement halter, ?_, hindexes'.trans hindexes,
      ⟨t'.addColumn c, ht'', fun c' hc' => ?_⟩, hnodup⟩
    · rw [OrderedDict.adjust_of_get? ht'', htables', OrderedDict.set_set, ← htables]
      rfl
    · obtain ⟨hadd, hiff⟩ := hlater c' hc'
      have hne : c'.name ≠ c.name := fun heq => hnew (heq ▸ List.mem_map_of_mem hc')
      rw [Table.mem_names_addColumn, or_iff_left hne]
      exact ⟨hadd, hiff⟩

/-- The columns of one table. -/
theorem addColumns_does (hname : name ∈ tableNames) (ht : db.tables.get? name = some t) :
    ∃ db', Does (addColumns tableNames name) db () db' ∧
      db'.tables = db.tables.adjust name (fun t => t.addColumns (columnsToAdd name)) ∧
      db'.indexes = db.indexes := by
  have hstart : Adding name t db (columnsToAdd name) db :=
    ⟨rfl, rfl, ⟨t, ht, fun c hc => ⟨hc, Iff.rfl⟩⟩, (columnsToAdd_ok name).1⟩
  obtain ⟨db', hloop, hend⟩ := does_forM (I := Adding name t db) (fun _ _ _ h => h.step) hstart
  refine ⟨db', ?_, ?_, hend.indexes⟩
  · unfold addColumns
    rw [if_pos hname]
    exact (getColumns_does ht).bind hloop
  · rw [← hend.tables]
    exact (OrderedDict.adjust_eq_self fun _ _ => rfl).symm

/-- The configurations are disabled but one, and the index keeps it so. -/
theorem cleanSmtpConfig_does (hname : "smtpconfig" ∈ tableNames)
    (ht : db.tables.get? "smtpconfig" = some t) (henabled : "enabled" ∈ t.names)
    (hkey : IdKey t)
    (hindexes : ∀ name index, db.indexes.get? name = some index → index.table = "smtpconfig" →
      index.unique = true → index = smtpSingleEnabled.2) :
    ∃ db', Does (cleanSmtpConfig tableNames) db () db' ∧
      db'.tables = db.tables.adjust "smtpconfig" keepLastEnabled ∧
      db'.indexes = db.indexes.setDefaults [smtpSingleEnabled] := by
  have hclash := not_clash_smtpSingleEnabled (single_keepLastEnabled hkey henabled)
  obtain ⟨db₁, hupdate, htables, hsame⟩ := Database.updateWhere_ok (v := .number 0)
    (p := outdated) ht henabled fun n index hn htable hunique => by
      rw [hindexes n index hn htable hunique]
      exact hclash
  have ht₁ : db₁.tables.get? smtpSingleEnabled.2.table = some (keepLastEnabled t) := by
    rw [htables]
    exact OrderedDict.get?_set_self
  have hnames : "enabled" ∈ (keepLastEnabled t).names := by
    unfold keepLastEnabled
    rwa [Table.names_update]
  have hsound : smtpSingleEnabled.2.Sound (keepLastEnabled t) := by
    refine ⟨fun c hc => ?_, fun e he => ?_, fun _ => hclash⟩
    · rw [List.mem_singleton.mp hc]
      exact hnames
    · cases he
      exact hnames
  obtain ⟨db', hcreate, htables', hindexes'⟩ := createIndexIfNotExists_ok ht₁ hsound
  refine ⟨db', ?_, ?_, ?_⟩
  · unfold cleanSmtpConfig
    rw [if_pos hname]
    exact (does_statement hupdate).bind (does_statement hcreate)
  · rw [htables', htables, OrderedDict.adjust_of_get? ht]
    rfl
  · rw [hindexes', hsame]
    rfl

/-- A complete table passes. -/
theorem checkWorkerHeartbeat_does (hname : "workerheartbeat" ∈ tableNames)
    (ht : db.tables.get? "workerheartbeat" = some t)
    (hcolumns : ∀ c ∈ heartbeatColumns, c ∈ t.names) :
    Does (checkWorkerHeartbeat tableNames) db () db := by
  have hmissing : heartbeatColumns.filter (· ∉ t.names) = [] :=
    List.filter_eq_nil_iff.mpr fun c hc => by simpa using hcolumns c hc
  unfold checkWorkerHeartbeat
  rw [if_pos hname]
  refine (getColumns_does ht).bind ?_
  dsimp only
  rw [if_pos hmissing]
  exact does_pure

/-- The log indexes. -/
theorem createLogIndexes_does
    (hnames : "executionlog" ∈ tableNames ∧ "maillog" ∈ tableNames)
    (hsound : ∀ e ∈ logIndexes, ∃ t, db.tables.get? e.2.table = some t ∧ e.2.Sound t) :
    ∃ db', Does (createLogIndexes tableNames) db () db' ∧ db'.tables = db.tables ∧
      db'.indexes = db.indexes.setDefaults logIndexes := by
  have hstart : db.tables = db.tables ∧
      db.indexes.setDefaults logIndexes = db.indexes.setDefaults logIndexes ∧
      ∀ e ∈ logIndexes, e ∈ logIndexes := ⟨rfl, rfl, fun _ he => he⟩
  obtain ⟨db', hloop, htables, hindexes, -⟩ := does_forM
    (f := fun e => statement (Database.createIndexIfNotExists e.1 e.2))
    (I := fun rest db' => db'.tables = db.tables ∧
      db'.indexes.setDefaults rest = db.indexes.setDefaults logIndexes ∧
      ∀ e ∈ rest, e ∈ logIndexes)
    (fun e rest db' => by
      rintro ⟨htables, hindexes, hrest⟩
      obtain ⟨t, ht, hsound⟩ := hsound e (hrest e List.mem_cons_self)
      rw [← htables] at ht
      obtain ⟨db'', hcreate, htables'', hindexes''⟩ := createIndexIfNotExists_ok ht hsound
      refine ⟨db'', does_statement hcreate, htables''.trans htables, ?_,
        fun e' he' => hrest e' (List.mem_cons_of_mem e he')⟩
      rw [hindexes'', ← hindexes]
      rfl)
    (l := logIndexes) hstart
  refine ⟨db', ?_, htables, hindexes⟩
  unfold createLogIndexes
  rw [if_pos hnames]
  exact hloop

/-- The suppressions that a newer one duplicates go, and the index keeps it so. -/
theorem dedupeSuppressions_does (hname : "alertsuppression" ∈ tableNames)
    (ht : db.tables.get? "alertsuppression" = some t) (hkey : IdKey t)
    (hcolumns : "rule_id" ∈ t.names ∧ "suppression_key" ∈ t.names) :
    ∃ db', Does (dedupeSuppressions tableNames) db () db' ∧
      db'.tables = db.tables.adjust "alertsuppression" keepNewest ∧
      db'.indexes = db.indexes.setDefaults [suppressionUnique] := by
  obtain ⟨db₁, hdelete, htables, hsame⟩ : ∃ db₁,
      Database.deleteRows "alertsuppression" newestSuppressions newestSuppressions_sublist db =
        .ok db₁ ∧
      db₁.tables = db.tables.set "alertsuppression" (keepNewest t) ∧ db₁.indexes = db.indexes :=
    Database.deleteRows_ok ht
  have ht₁ : db₁.tables.get? suppressionUnique.2.table = some (keepNewest t) := by
    rw [htables]
    exact OrderedDict.get?_set_self
  have hsound : suppressionUnique.2.Sound (keepNewest t) := by
    refine ⟨fun c hc => ?_, fun e he => (by cases he), fun _ =>
      not_clash_suppressionUnique (nodup_keepNewest hkey)⟩
    rcases List.mem_cons.mp hc with rfl | hc
    · exact hcolumns.1
    · rw [List.mem_singleton.mp hc]
      exact hcolumns.2
  obtain ⟨db', hcreate, htables', hindexes'⟩ := createIndexIfNotExists_ok ht₁ hsound
  refine ⟨db', ?_, ?_, ?_⟩
  · unfold dedupeSuppressions
    rw [if_pos hname]
    exact (does_statement hdelete).bind (does_statement hcreate)
  · rw [htables', htables, OrderedDict.adjust_of_get? ht]
  · rw [hindexes', hsame]
    rfl

/-- After `create_all` every table of the models is there. -/
theorem get?_setDefaults_model (tables : OrderedDict String Table) (hm : m ∈ modelTables) :
    ∃ t, (tables.setDefaults modelEntries).get? m.name = some t :=
  Option.isSome_iff_exists.mp
    (OrderedDict.isSome_setDefaults (e := (m.name, m.empty)) (List.mem_map.mpr ⟨m, hm, rfl⟩))

/-- A table after `create_all` was there, or it is a new one. -/
theorem of_get?_setDefaults_model {tables : OrderedDict String Table}
    (h : (tables.setDefaults modelEntries).get? name = some t) :
    tables.get? name = some t ∨ ∃ m ∈ modelTables, m.name = name ∧ t = m.empty := by
  refine (OrderedDict.of_get?_setDefaults h).imp_right fun hnew => ?_
  obtain ⟨m, hm, heq⟩ := List.mem_map.mp hnew
  cases heq
  exact ⟨m, hm, rfl, rfl⟩

theorem createdIndexes_subset {tables : OrderedDict String Table}
    (h : e ∈ createdIndexes tables) : e ∈ programIndexes := by
  obtain ⟨m, hm, he⟩ := List.mem_flatMap.mp h
  exact List.mem_append_left _ (List.mem_flatMap.mpr ⟨m, (List.mem_filter.mp hm).1, he⟩)

/-- What `_migrate_sqlite_schema` starts from and keeps: the database is legacy, and every table
of the models is there and in `tableNames`. -/
structure Ready (tableNames : List String) (db : Database) : Prop where
  legacy : Legacy db
  listed : ∀ m ∈ modelTables, m.name ∈ tableNames
  there : ∀ m ∈ modelTables, ∃ t, db.tables.get? m.name = some t

/-- An upgrade of one table, and some of the program's indexes. -/
theorem Ready.step (h : Ready tableNames db) (added : List (String × Index))
    (htables : db'.tables = db.tables.adjust name (upgradeTable name))
    (hindexes : db'.indexes = db.indexes.setDefaults added)
    (hadded : ∀ e ∈ added, e ∈ programIndexes) : Ready tableNames db' := by
  have hget : ∀ n, db'.tables.get? n =
      if n = name then (db.tables.get? n).map (upgradeTable n) else db.tables.get? n := by
    intro n
    rw [htables]
    split
    case isTrue hn => rw [hn, OrderedDict.get?_adjust_self]
    case isFalse hn => exact OrderedDict.get?_adjust_ne hn
  refine ⟨h.legacy.preserved (fun n t' ht' => .inl ?_) fun n index hindex => ?_, h.listed,
    fun m hm => ?_⟩
  · rw [hget] at ht'
    split at ht'
    · obtain ⟨t, ht, rfl⟩ := Option.map_eq_some_iff.mp ht'
      refine ⟨t, ht, fun c => mem_names_upgradeTable, fun hn hkey => ?_⟩
      rcases List.mem_cons.mp hn with rfl | hn
      · rw [upgradeTable_smtpConfig]
        exact hkey.keepLastEnabled
          (h.legacy.complete (m := smtpConfig) (by simp [modelTables]) ht rfl (by decide))
      · rw [List.mem_singleton.mp hn, upgradeTable_alertSuppression]
        exact hkey.keepNewest
    · exact ⟨t', ht', fun _ hc => hc, fun _ hkey => hkey⟩
  · rw [hindexes] at hindex
    exact (OrderedDict.of_get?_setDefaults hindex).imp_right (hadded _)
  · obtain ⟨t, ht⟩ := h.there m hm
    rw [hget]
    split
    · exact ⟨upgradeTable m.name t, by rw [ht]; rfl⟩
    · exact ⟨t, ht⟩

theorem Ready.addColumns (h : Ready tableNames db) (hm : m ∈ modelTables) (hname : m.name = name)
    (hsmtp : name ≠ "smtpconfig") (hsuppression : name ≠ "alertsuppression") :
    ∃ db', Does (addColumns tableNames name) db () db' ∧ Ready tableNames db' ∧
      db'.tables = db.tables.adjust name (upgradeTable name) ∧ db'.indexes = db.indexes := by
  subst hname
  obtain ⟨t, ht⟩ := h.there m hm
  obtain ⟨db', hdoes, htables, hindexes⟩ := addColumns_does (h.listed m hm) ht
  rw [← upgradeTable_of_columns hsmtp hsuppression] at htables
  exact ⟨db', hdoes, h.step [] htables hindexes (by simp), htables, hindexes⟩

theorem Ready.cleanSmtpConfig (h : Ready tableNames db) :
    ∃ db', Does (cleanSmtpConfig tableNames) db () db' ∧ Ready tableNames db' ∧
      db'.tables = db.tables.adjust "smtpconfig" (upgradeTable "smtpconfig") ∧
      db'.indexes = db.indexes.setDefaults [smtpSingleEnabled] := by
  have hm : smtpConfig ∈ modelTables := by simp [modelTables]
  obtain ⟨t, ht⟩ := h.there smtpConfig hm
  obtain ⟨db', hdoes, htables, hindexes⟩ := cleanSmtpConfig_does (h.listed smtpConfig hm) ht
    (h.legacy.complete hm ht rfl (by decide)) (h.legacy.ids _ (by decide) t ht)
    h.legacy.smtpIndexes
  rw [← upgradeTable_smtpConfig] at htables
  refine ⟨db', hdoes, h.step _ htables hindexes fun e he => ?_, htables, hindexes⟩
  rw [List.mem_singleton.mp he]
  exact List.mem_append_right _ List.mem_cons_self

theorem Ready.checkWorkerHeartbeat (h : Ready tableNames db) :
    Does (checkWorkerHeartbeat tableNames) db () db := by
  have hm : workerHeartbeat ∈ modelTables := by simp [modelTables]
  obtain ⟨t, ht⟩ := h.there workerHeartbeat hm
  exact checkWorkerHeartbeat_does (h.listed workerHeartbeat hm) ht
    fun c hc => h.legacy.complete hm ht rfl hc

theorem Ready.createLogIndexes (h : Ready tableNames db) :
    ∃ db', Does (createLogIndexes tableNames) db () db' ∧ Ready tableNames db' ∧
      db'.tables = db.tables ∧ db'.indexes = db.indexes.setDefaults logIndexes := by
  have hsound : ∀ e ∈ logIndexes, ∃ t, db.tables.get? e.2.table = some t ∧ e.2.Sound t := by
    intro e he
    obtain ⟨hunique, honly, m, hm, htable, hadd, hcolumns⟩ := logIndexes_own e he
    obtain ⟨t, ht⟩ := h.there m hm
    refine ⟨t, htable ▸ ht, fun c hc => ?_, by simp [honly], fun htrue => ?_⟩
    · exact h.legacy.complete hm ht hadd (hcolumns c hc)
    · rw [hunique] at htrue
      cases htrue
  obtain ⟨db', hdoes, htables, hindexes⟩ := createLogIndexes_does
    ⟨h.listed executionLog (by simp [modelTables]), h.listed mailLog (by simp [modelTables])⟩ hsound
  have hready : Ready tableNames db' := by
    refine ⟨h.legacy.preserved (fun n t ht => .inl ⟨t, htables ▸ ht, fun _ hc => hc,
      fun _ hkey => hkey⟩) fun n index hindex => ?_, h.listed, htables ▸ h.there⟩
    rw [hindexes] at hindex
    exact (OrderedDict.of_get?_setDefaults hindex).imp_right fun hnew =>
      List.mem_append_right _ (List.mem_cons_of_mem _ (List.mem_append_left _ hnew))
  exact ⟨db', hdoes, hready, htables, hindexes⟩

theorem Ready.dedupeSuppressions (h : Ready tableNames db) :
    ∃ db', Does (dedupeSuppressions tableNames) db () db' ∧ Ready tableNames db' ∧
      db'.tables = db.tables.adjust "alertsuppression" (upgradeTable "alertsuppression") ∧
      db'.indexes = db.indexes.setDefaults [suppressionUnique] := by
  have hm : alertSuppression ∈ modelTables := by simp [modelTables]
  obtain ⟨t, ht⟩ := h.there alertSuppression hm
  obtain ⟨db', hdoes, htables, hindexes⟩ := dedupeSuppressions_does (h.listed _ hm) ht
    (h.legacy.ids _ (by decide) t ht)
    ⟨h.legacy.complete hm ht rfl (by decide), h.legacy.complete hm ht rfl (by decide)⟩
  rw [← upgradeTable_alertSuppression] at htables
  refine ⟨db', hdoes, h.step _ htables hindexes fun e he => ?_, htables, hindexes⟩
  rw [List.mem_singleton.mp he]
  exact List.mem_append_right _ (List.mem_append_right _ List.mem_cons_self)

/-- After `create_all` the database is ready. -/
theorem createAll_ready (h : Legacy db) : ∃ db', Does createAll db () db' ∧
    Ready db'.tables.keys db' ∧ db'.tables = db.tables.setDefaults modelEntries ∧
    db'.indexes = db.indexes.setDefaults (createdIndexes db.tables) := by
  obtain ⟨db', hdoes, htables, hindexes⟩ := createAll_does h.indexes
  have hthere : ∀ m ∈ modelTables, ∃ t, db'.tables.get? m.name = some t := fun m hm => by
    rw [htables]
    exact get?_setDefaults_model db.tables hm
  refine ⟨db', hdoes, ⟨h.preserved (fun n t ht => ?_) fun n index hindex => ?_,
    fun m hm => OrderedDict.mem_keys.mpr (hthere m hm), hthere⟩, htables, hindexes⟩
  · rw [htables] at ht
    rcases of_get?_setDefaults_model ht with hold | hnew
    · exact .inl ⟨t, hold, fun _ hc => hc, fun _ hkey => hkey⟩
    · exact .inr hnew
  · rw [hindexes] at hindex
    exact (OrderedDict.of_get?_setDefaults hindex).imp_right createdIndexes_subset

/-- **The effect of the migration**: one equation for the tables and one for the indexes. -/
theorem migrate_does (h : Legacy db) :
    ∃ db', Does (do createAll; migrateSqliteSchema) db () db' ∧ (∃ names, Ready names db') ∧
      db'.tables = upgradeTables (db.tables.setDefaults modelEntries) ∧
      db'.indexes = db.indexes.setDefaults (createdIndexes db.tables ++ migrationIndexes) := by
  obtain ⟨db₁, hcreate, hready₁, htables₁, hindexes₁⟩ := createAll_ready h
  obtain ⟨db₂, hadmin, hready₂, htables₂, hindexes₂⟩ := hready₁.addColumns
    (m := adminUser) (by simp [modelTables]) (rfl : _ = "adminuser") (by decide) (by decide)
  obtain ⟨db₃, hsource, hready₃, htables₃, hindexes₃⟩ := hready₂.addColumns
    (m := sqlDataSource) (by simp [modelTables]) (rfl : _ = "sqldatasource") (by decide)
    (by decide)
  obtain ⟨db₄, hrule, hready₄, htables₄, hindexes₄⟩ := hready₃.addColumns
    (m := alertRule) (by simp [modelTables]) (rfl : _ = "alertrule") (by decide) (by decide)
  obtain ⟨db₅, hsmtp, hready₅, htables₅, hindexes₅⟩ := hready₄.cleanSmtpConfig
  have hheartbeat := hready₅.checkWorkerHeartbeat
  obtain ⟨db₆, hlogs, hready₆, htables₆, hindexes₆⟩ := hready₅.createLogIndexes
  obtain ⟨db₇, hsuppression, hready₇, htables₇, hindexes₇⟩ := hready₆.dedupeSuppressions
  have hmigrate : Does migrateSqliteSchema db₁ () db₇ := by
    unfold migrateSqliteSchema getTableNames
    refine (does_inspect fun db : Database => db.tables.keys).bind ?_
    refine hadmin.bind (hsource.bind (hrule.bind ?_))
    exact hsmtp.bind (hheartbeat.bind (hlogs.bind hsuppression))
  refine ⟨db₇, hcreate.bind hmigrate, ⟨_, hready₇⟩, ?_, ?_⟩
  · rw [htables₇, htables₆, htables₅, htables₄, htables₃, htables₂, htables₁]
    simp only [upgradeTables, upgradedNames, List.foldl_cons, List.foldl_nil]
  · rw [hindexes₇, hindexes₆, hindexes₅, hindexes₄, hindexes₃, hindexes₂, hindexes₁,
      ← OrderedDict.setDefaults_append, ← OrderedDict.setDefaults_append,
      ← OrderedDict.setDefaults_append]
    simp [migrationIndexes]

end Phases

end EarlyWarning.Migration
