/-
# `Lib.Sqlite` — tables, indexes and the statements that change them

As much of a relational database as a schema migration needs.  A row has a value for every
column of its table, and the rows of a table meet its unique indexes: both are fields of the
structures, so a statement that would break one of them raises and leaves the database as it
was.

Every statement has one lemma that says when it succeeds and what it does then.  Column types,
default values of later inserts and foreign keys are left out, and names are compared as they
are written.
-/
import EarlyWarning.Lib.OrderedDict
import Mathlib.Algebra.Order.Ring.Rat
import Mathlib.Data.Fin.Basic
import Mathlib.Data.List.Lex
import Mathlib.Data.List.Sort
import Mathlib.Data.Prod.Lex
import Mathlib.Data.String.Basic

namespace Lib.Sqlite

/-! ## Values -/

inductive Value
  | null
  | number (q : Rat)
  | text (s : String)
  | blob (bytes : List (Fin 256))

/-- The storage class, and the value in it. -/
def Value.sortKey : Value → ℕ ×ₗ ℚ ×ₗ String ×ₗ List (Fin 256)
  | .null => toLex (0, toLex (0, toLex ("", [])))
  | .number q => toLex (1, toLex (q, toLex ("", [])))
  | .text s => toLex (2, toLex (0, toLex (s, [])))
  | .blob bytes => toLex (3, toLex (0, toLex ("", bytes)))

theorem Value.sortKey_injective : Function.Injective Value.sortKey := by
  intro v w h
  cases v <;> cases w <;> simp_all [Value.sortKey]

/-- The order of `ORDER BY`. -/
instance : LinearOrder Value := LinearOrder.lift' Value.sortKey Value.sortKey_injective

abbrev Row := OrderedDict String Value

/-- The value of a column; a row of a table has one for each of its columns. -/
def Row.value (r : Row) (column : String) : Value := (r.get? column).getD .null

/-- `ORDER BY … DESC LIMIT 1` -/
def firstDescending {ρ : Type*} [LinearOrder ρ] (rank : Row → ρ) (rows : List Row) : Option Row :=
  (rows.insertionSort fun r s => rank s ≤ rank r).head?

section

variable {ρ : Type*} [LinearOrder ρ] {rank : Row → ρ} {rows : List Row} {r : Row}

theorem firstDescending_eq_none : firstDescending rank rows = none ↔ rows = [] := by
  unfold firstDescending
  rw [List.head?_eq_none_iff, ← List.length_eq_zero_iff, List.length_insertionSort,
    List.length_eq_zero_iff]

/-- The first row in descending order has the greatest rank. -/
theorem firstDescending_spec (h : firstDescending rank rows = some r) :
    r ∈ rows ∧ ∀ s ∈ rows, rank s ≤ rank r := by
  have : Std.Total fun r s : Row => rank s ≤ rank r := ⟨fun r s => le_total _ _⟩
  have : IsTrans Row fun r s => rank s ≤ rank r := ⟨fun _ _ _ h h' => le_trans h' h⟩
  have hsorted := List.pairwise_insertionSort (fun r s : Row => rank s ≤ rank r) rows
  obtain ⟨rest, hrest⟩ := List.head?_eq_some_iff.mp h
  rw [hrest] at hsorted
  have hmem : ∀ s, s ∈ rows ↔ s ∈ r :: rest := fun s => by
    rw [← hrest, List.mem_insertionSort]
  refine ⟨(hmem r).mpr List.mem_cons_self, fun s hs => ?_⟩
  rcases List.mem_cons.mp ((hmem s).mp hs) with rfl | hs
  · exact le_refl _
  · exact (List.pairwise_cons.mp hsorted).1 s hs

end

/-! ## Tables -/

structure Column where
  name : String
  notNull : Bool
  /-- `NULL` when the column has no `DEFAULT` -/
  default : Value := .null
deriving DecidableEq

structure Table where
  columns : List Column
  rows : List Row
  aligned : ∀ r ∈ rows, r.keys = columns.map Column.name

namespace Table

@[ext] theorem ext {t t' : Table} (hcolumns : t.columns = t'.columns) (hrows : t.rows = t'.rows) :
    t = t' := by
  cases t
  cases t'
  cases hcolumns
  cases hrows
  rfl

def names (t : Table) : List String := t.columns.map Column.name

def new (columns : List Column) : Table := ⟨columns, [], fun _ h => by cases h⟩

variable {t : Table} {r : Row} {c : Column} {column : String} {v : Value} {p : Row → Bool}

theorem mem_keys (hr : r ∈ t.rows) : column ∈ r.keys ↔ column ∈ t.names := by
  rw [t.aligned r hr]
  rfl

/-- The rows have the default value in a new column. -/
def addColumn (t : Table) (c : Column) : Table :=
  if h : c.name ∈ t.names then t
  else
    { columns := t.columns ++ [c]
      rows := t.rows.map fun r => r.set c.name c.default
      aligned := fun r hr => by
        obtain ⟨s, hs, rfl⟩ := List.mem_map.mp hr
        rw [OrderedDict.keys_set_of_not_mem fun hk => h ((mem_keys hs).mp hk), t.aligned s hs]
        simp }

/-- The rows that meet `p` have the value `v` in a column. -/
def update (t : Table) (column : String) (v : Value) (p : Row → Bool) : Table :=
  if h : column ∈ t.names then
    { columns := t.columns
      rows := t.rows.map fun r => if p r then r.set column v else r
      aligned := fun r hr => by
        obtain ⟨s, hs, rfl⟩ := List.mem_map.mp hr
        rw [← t.aligned s hs]
        split
        · exact OrderedDict.keys_set_of_mem ((mem_keys hs).mpr h)
        · rfl }
  else t

/-- The rows that meet `p` are left. -/
def keep (t : Table) (rows : List Row) (h : rows.Sublist t.rows) : Table :=
  { t with rows, aligned := fun r hr => t.aligned r (h.subset hr) }

theorem addColumn_of_mem (h : c.name ∈ t.names) : t.addColumn c = t := dif_pos h

theorem names_addColumn : (t.addColumn c).names =
    if c.name ∈ t.names then t.names else t.names ++ [c.name] := by
  unfold addColumn
  split
  · rfl
  · simp [names]

theorem mem_names_addColumn : column ∈ (t.addColumn c).names ↔
    column ∈ t.names ∨ column = c.name := by
  rw [names_addColumn]
  split
  case isTrue h =>
    refine ⟨.inl, fun hor => hor.elim id fun heq => heq ▸ h⟩
  case isFalse => simp

theorem rows_addColumn : (t.addColumn c).rows =
    t.rows.map fun r => if c.name ∈ t.names then r else r.set c.name c.default := by
  unfold addColumn
  split <;> simp

@[simp] theorem names_update : (t.update column v p).names = t.names := by
  unfold update
  split <;> rfl

theorem rows_update (h : column ∈ t.names) :
    (t.update column v p).rows = t.rows.map fun r => if p r then r.set column v else r := by
  unfold update
  rw [dif_pos h]

/-- Nothing is changed when no row meets `p`. -/
theorem update_eq_self (h : ∀ r ∈ t.rows, p r = false) : t.update column v p = t := by
  unfold update
  split
  · refine Table.ext rfl ((List.map_congr_left fun r hr => ?_).trans (List.map_id _))
    rw [h r hr]
    rfl
  · rfl

/-- Columns are added one after the other. -/
def addColumns (t : Table) (cs : List Column) : Table := cs.foldl addColumn t

theorem mem_names_addColumns {cs : List Column} : ∀ {t : Table},
    column ∈ (t.addColumns cs).names ↔ column ∈ t.names ∨ column ∈ cs.map Column.name := by
  induction cs with
  | nil => simp [addColumns]
  | cons c cs ih =>
      intro t
      show column ∈ ((t.addColumn c).addColumns cs).names ↔ _
      rw [ih, mem_names_addColumn, List.map_cons, List.mem_cons, or_assoc]

theorem addColumns_of_subset {cs : List Column} (h : ∀ c ∈ cs, c.name ∈ t.names) :
    t.addColumns cs = t := by
  induction cs with
  | nil => rfl
  | cons c cs ih =>
      show (t.addColumn c).addColumns cs = t
      rw [addColumn_of_mem (h c List.mem_cons_self)]
      exact ih fun c' hc' => h c' (List.mem_cons_of_mem c hc')

/-- The rows keep their values, and have the default in the columns that are new. -/
theorem rows_addColumns {cs : List Column} (hnodup : (cs.map Column.name).Nodup) :
    ∀ t : Table, ∃ extend : Row → Row, (t.addColumns cs).rows = t.rows.map extend ∧ ∀ r,
      (∀ column ∈ t.names, (extend r).get? column = r.get? column) ∧
      ∀ c ∈ cs, c.name ∉ t.names → (extend r).get? c.name = some c.default := by
  induction cs with
  | nil => exact fun t => ⟨id, (List.map_id _).symm, fun r => ⟨fun _ _ => rfl, by simp⟩⟩
  | cons c cs ih =>
      intro t
      obtain ⟨hnew, hnodup⟩ := List.nodup_cons.mp hnodup
      obtain ⟨extend, hrows, hextend⟩ := ih hnodup (t.addColumn c)
      refine ⟨fun r => extend (if c.name ∈ t.names then r else r.set c.name c.default), ?_,
        fun r => ⟨fun column hcolumn => ?_, fun c' hc' hnew' => ?_⟩⟩
      · show ((t.addColumn c).addColumns cs).rows = _
        rw [hrows, rows_addColumn, List.map_map]
        rfl
      · rw [(hextend _).1 column (mem_names_addColumn.mpr (.inl hcolumn))]
        split
        · rfl
        case isFalse hc =>
          have hne : column ≠ c.name := by
            rintro rfl
            exact hc hcolumn
          exact OrderedDict.get?_set_ne hne
      · rcases List.mem_cons.mp hc' with rfl | hc'
        · rw [(hextend _).1 _ (mem_names_addColumn.mpr (.inr rfl)), if_neg hnew']
          exact OrderedDict.get?_set_self
        · refine (hextend _).2 c' hc' fun hmem => ?_
          rcases mem_names_addColumn.mp hmem with hold | heq
          · exact hnew' hold
          · exact hnew (heq ▸ List.mem_map_of_mem hc')

end Table

/-! ## Indexes -/

structure Index where
  table : String
  columns : List String
  unique : Bool := false
  /-- a column and the value it has in the rows that a partial index is about -/
  only : Option (String × Value) := none
deriving DecidableEq

namespace Index

/-- The row is one that the index is about. -/
def Covers (index : Index) (r : Row) : Prop :=
  ∀ e ∈ index.only, r.value e.1 = e.2

def key (index : Index) (r : Row) : List Value := index.columns.map r.value

/-- A unique index allows one of the two rows; a `NULL` is equal to nothing. -/
def Clash (index : Index) (r s : Row) : Prop :=
  index.Covers r ∧ index.Covers s ∧ index.key r = index.key s ∧ .null ∉ index.key r

instance (index : Index) (r : Row) : Decidable (index.Covers r) :=
  inferInstanceAs (Decidable (∀ e ∈ index.only, r.value e.1 = e.2))

instance (index : Index) (r s : Row) : Decidable (index.Clash r s) :=
  inferInstanceAs (Decidable (_ ∧ _))

/-- The index can be on the table: it has the columns, and the rows that it asks for. -/
structure Sound (index : Index) (t : Table) : Prop where
  columns : ∀ c ∈ index.columns, c ∈ t.names
  only : ∀ e ∈ index.only, e.1 ∈ t.names
  unique : index.unique = true → t.rows.Pairwise fun r s => ¬index.Clash r s

instance (index : Index) (t : Table) : Decidable (index.Sound t) :=
  decidable_of_iff ((∀ c ∈ index.columns, c ∈ t.names) ∧ (∀ e ∈ index.only, e.1 ∈ t.names) ∧
      (index.unique = true → t.rows.Pairwise fun r s => ¬index.Clash r s))
    ⟨fun h => ⟨h.1, h.2.1, h.2.2⟩, fun h => ⟨h.columns, h.only, h.unique⟩⟩

variable {index : Index} {t : Table} {r s r' s' : Row} {c : Column} {column : String}

/-- Rows with the same values in the columns of the index are the same to it. -/
theorem clash_congr (hr : ∀ column, column ∈ index.columns ∨ (∃ e ∈ index.only, e.1 = column) →
      r'.value column = r.value column)
    (hs : ∀ column, column ∈ index.columns ∨ (∃ e ∈ index.only, e.1 = column) →
      s'.value column = s.value column) : index.Clash r' s' ↔ index.Clash r s := by
  have hkey : ∀ {q q' : Row}, (∀ column, column ∈ index.columns ∨
      (∃ e ∈ index.only, e.1 = column) → q'.value column = q.value column) →
      index.key q' = index.key q ∧ (index.Covers q' ↔ index.Covers q) := by
    intro q q' hq
    refine ⟨List.map_congr_left fun column hcolumn => hq column (.inl hcolumn), ?_⟩
    exact forall_congr' fun e => forall_congr' fun he => by
      rw [hq e.1 (.inr ⟨e, he, rfl⟩)]
  unfold Clash
  rw [(hkey hr).1, (hkey hs).1, (hkey hr).2, (hkey hs).2]

/-- A new column is none of the index. -/
theorem Sound.addColumn (h : index.Sound t) : index.Sound (t.addColumn c) where
  columns := fun column hcolumn => Table.mem_names_addColumn.mpr (.inl (h.columns column hcolumn))
  only := fun e he => Table.mem_names_addColumn.mpr (.inl (h.only e he))
  unique := fun hunique => by
    rw [Table.rows_addColumn, List.pairwise_map]
    refine (h.unique hunique).imp fun {r s} hclash hnew => hclash ?_
    refine (clash_congr ?_ ?_).mp hnew <;>
    · intro column hcolumn
      have hmem : column ∈ t.names := by
        rcases hcolumn with hcolumn | ⟨e, he, rfl⟩
        · exact h.columns column hcolumn
        · exact h.only e he
      split
      · rfl
      case isFalse hnew =>
        have hne : column ≠ c.name := by
          rintro rfl
          exact hnew hmem
        unfold Row.value
        rw [OrderedDict.get?_set_ne hne]

/-- An index that is not unique does not look at the values. -/
theorem Sound.update {v : Value} {p : Row → Bool} (h : index.Sound t)
    (hunique : index.unique = true →
      (t.update column v p).rows.Pairwise fun r s => ¬index.Clash r s) :
    index.Sound (t.update column v p) where
  columns := fun c hc => by
    rw [Table.names_update]
    exact h.columns c hc
  only := fun e he => by
    rw [Table.names_update]
    exact h.only e he
  unique := hunique

theorem Sound.keep {rows : List Row} (h : index.Sound t) (hrows : rows.Sublist t.rows) :
    index.Sound (t.keep rows hrows) :=
  ⟨h.columns, h.only, fun hunique => (h.unique hunique).sublist hrows⟩

theorem sound_new {columns : List Column}
    (hcolumns : ∀ c ∈ index.columns, c ∈ columns.map Column.name)
    (honly : ∀ e ∈ index.only, e.1 ∈ columns.map Column.name) :
    index.Sound (Table.new columns) :=
  ⟨hcolumns, honly, fun _ => List.Pairwise.nil⟩

end Index

/-! ## Databases -/

/-- Every index is on a table, which meets it. -/
structure Database where
  tables : OrderedDict String Table
  indexes : OrderedDict String Index
  sound : ∀ name index, indexes.get? name = some index →
    ∃ t, tables.get? index.table = some t ∧ index.Sound t

inductive SqlError
  | noSuchTable (table : String)
  | tableExists (table : String)
  | noSuchColumn (column : String)
  | duplicateColumn (column : String)
  | notNullWithoutDefault (column : String)
  | indexExists (index : String)
  /-- a unique index would not be met -/
  | notUnique (table : String)
deriving DecidableEq

namespace Database

@[ext] theorem ext {db db' : Database} (htables : db.tables = db'.tables)
    (hindexes : db.indexes = db'.indexes) : db = db' := by
  cases db
  cases db'
  cases htables
  cases hindexes
  rfl

variable {db : Database} {name : String} {t t' : Table} {c : Column} {index : Index}

/-- The indexes of a table, if `t` is what is in it. -/
def Meets (db : Database) (name : String) (t : Table) : Prop :=
  ∀ e ∈ db.indexes.entries, e.2.table = name → e.2.Sound t

instance (db : Database) (name : String) (t : Table) : Decidable (db.Meets name t) :=
  inferInstanceAs (Decidable (∀ e ∈ db.indexes.entries, e.2.table = name → e.2.Sound t))

theorem meets_iff : db.Meets name t ↔
    ∀ n index, db.indexes.get? n = some index → index.table = name → index.Sound t :=
  ⟨fun h n index hn => h (n, index) (OrderedDict.get?_eq_some.mp hn),
    fun h e he => h e.1 e.2 (OrderedDict.get?_eq_some.mpr he)⟩

theorem sound_get? (hindex : db.indexes.get? name = some index)
    (ht : db.tables.get? index.table = some t) : index.Sound t := by
  obtain ⟨t', ht', hsound⟩ := db.sound name index hindex
  rw [ht] at ht'
  cases ht'
  exact hsound

/-- The table is changed to `t`. -/
def replace (db : Database) (name : String) (t : Table) : Except SqlError Database :=
  if h : db.Meets name t then
    .ok { tables := db.tables.set name t
          indexes := db.indexes
          sound := fun n index hn => by
            by_cases htable : index.table = name
            · exact ⟨t, by rw [htable, OrderedDict.get?_set_self], meets_iff.mp h n index hn htable⟩
            · rw [OrderedDict.get?_set_ne htable]
              exact db.sound n index hn }
  else .error (.notUnique name)

theorem replace_ok (h : db.Meets name t) : ∃ db', db.replace name t = .ok db' ∧
    db'.tables = db.tables.set name t ∧ db'.indexes = db.indexes := by
  unfold replace
  rw [dif_pos h]
  exact ⟨_, rfl, rfl, rfl⟩

/-- `ALTER TABLE name ADD COLUMN c` -/
def alterTableAddColumn (name : String) (c : Column) (db : Database) :
    Except SqlError Database :=
  match db.tables.get? name with
  | none => .error (.noSuchTable name)
  | some t =>
      if c.name ∈ t.names then .error (.duplicateColumn c.name)
      else if c.notNull = true ∧ c.default = .null then .error (.notNullWithoutDefault c.name)
      else db.replace name (t.addColumn c)

theorem alterTableAddColumn_ok (ht : db.tables.get? name = some t) (hnew : c.name ∉ t.names)
    (hdefault : c.notNull = true → c.default ≠ .null) :
    ∃ db', alterTableAddColumn name c db = .ok db' ∧
      db'.tables = db.tables.set name (t.addColumn c) ∧ db'.indexes = db.indexes := by
  unfold alterTableAddColumn
  rw [ht]
  dsimp only
  rw [if_neg hnew, if_neg fun h => hdefault h.1 h.2]
  exact replace_ok (meets_iff.mpr fun n index hn htable =>
    (sound_get? hn (htable ▸ ht)).addColumn)

/-- `UPDATE name SET column = v WHERE p`, where `p` may look at the table too. -/
def updateWhere (name column : String) (v : Value) (p : Table → Row → Bool) (db : Database) :
    Except SqlError Database :=
  match db.tables.get? name with
  | none => .error (.noSuchTable name)
  | some t =>
      if column ∈ t.names then db.replace name (t.update column v (p t))
      else .error (.noSuchColumn column)

theorem updateWhere_ok {column : String} {v : Value} {p : Table → Row → Bool}
    (ht : db.tables.get? name = some t) (hcolumn : column ∈ t.names)
    (hunique : ∀ n index, db.indexes.get? n = some index → index.table = name →
      index.unique = true → (t.update column v (p t)).rows.Pairwise fun r s => ¬index.Clash r s) :
    ∃ db', updateWhere name column v p db = .ok db' ∧
      db'.tables = db.tables.set name (t.update column v (p t)) ∧ db'.indexes = db.indexes := by
  unfold updateWhere
  rw [ht]
  dsimp only
  rw [if_pos hcolumn]
  exact replace_ok (meets_iff.mpr fun n index hn htable =>
    (sound_get? hn (htable ▸ ht)).update (hunique n index hn htable))

/-- `DELETE FROM name`, of the rows that `left` does not leave. -/
def deleteRows (name : String) (left : List Row → List Row)
    (hleft : ∀ rows, (left rows).Sublist rows) (db : Database) : Except SqlError Database :=
  match db.tables.get? name with
  | none => .error (.noSuchTable name)
  | some t => db.replace name (t.keep (left t.rows) (hleft t.rows))

theorem deleteRows_ok {left : List Row → List Row} {hleft : ∀ rows, (left rows).Sublist rows}
    (ht : db.tables.get? name = some t) :
    ∃ db', deleteRows name left hleft db = .ok db' ∧
      db'.tables = db.tables.set name (t.keep (left t.rows) (hleft t.rows)) ∧
      db'.indexes = db.indexes := by
  unfold deleteRows
  rw [ht]
  exact replace_ok (meets_iff.mpr fun n index hn htable =>
    (sound_get? hn (htable ▸ ht)).keep (hleft t.rows))

/-- `CREATE TABLE name (columns)` -/
def createTable (name : String) (columns : List Column) (db : Database) :
    Except SqlError Database :=
  if h : (db.tables.get? name).isSome then .error (.tableExists name)
  else
    .ok { tables := db.tables.set name (.new columns)
          indexes := db.indexes
          sound := fun n index hn => by
            obtain ⟨t, ht, hsound⟩ := db.sound n index hn
            have hne : index.table ≠ name := by
              rintro rfl
              rw [ht] at h
              exact h rfl
            exact ⟨t, by rw [OrderedDict.get?_set_ne hne, ht], hsound⟩ }

theorem createTable_ok {columns : List Column} (h : db.tables.get? name = none) :
    ∃ db', createTable name columns db = .ok db' ∧
      db'.tables = db.tables.set name (.new columns) ∧ db'.indexes = db.indexes := by
  unfold createTable
  rw [dif_neg (by rw [h]; exact Bool.false_ne_true)]
  exact ⟨_, rfl, rfl, rfl⟩

/-- The index `name`, if its table has the columns and meets it. -/
def addIndex (name : String) (index : Index) (db : Database) : Except SqlError Database :=
  match ht : db.tables.get? index.table with
  | none => .error (.noSuchTable index.table)
  | some t =>
      if h : index.Sound t then
        .ok { tables := db.tables
              indexes := db.indexes.set name index
              sound := fun n index' hn => by
                by_cases hname : n = name
                · rw [hname, OrderedDict.get?_set_self] at hn
                  cases hn
                  exact ⟨t, ht, h⟩
                · rw [OrderedDict.get?_set_ne hname] at hn
                  exact db.sound n index' hn }
      else
        match (index.columns ++ (index.only.map Prod.fst).toList).find? (· ∉ t.names) with
        | some column => .error (.noSuchColumn column)
        | none => .error (.notUnique index.table)

theorem addIndex_ok (ht : db.tables.get? index.table = some t) (h : index.Sound t) :
    ∃ db', addIndex name index db = .ok db' ∧ db'.tables = db.tables ∧
      db'.indexes = db.indexes.set name index := by
  unfold addIndex
  split
  case h_1 hnone =>
    rw [ht] at hnone
    cases hnone
  case h_2 t' ht' =>
    rw [ht] at ht'
    cases ht'
    rw [dif_pos h]
    exact ⟨_, rfl, rfl, rfl⟩

/-- `CREATE INDEX name` -/
def createIndex (name : String) (index : Index) (db : Database) : Except SqlError Database :=
  if (db.indexes.get? name).isSome then .error (.indexExists name) else db.addIndex name index

/-- `CREATE INDEX IF NOT EXISTS name` -/
def createIndexIfNotExists (name : String) (index : Index) (db : Database) :
    Except SqlError Database :=
  if (db.indexes.get? name).isSome then .ok db else db.addIndex name index

end Database

end Lib.Sqlite
