/-
# `FilterExact` — what `filter_rows` keeps, without its accumulators

A row is kept when it has no key, or when the ledger does not withhold its key and no row before
it has the key.  That is said of the rows and the ledger alone (`keeps`); `filter_exact` says that
the loop does this, whatever the rows are, and what it leaves in its dictionary.
-/
import EarlyWarning.Ledger

namespace EarlyWarning

open Lib

/-! ## The rows that are kept -/

/-- The ledger has a record of the key that the cutoff does not rule out. -/
def Db.Withheld (db : Db) (ruleId : Nat) (cutoff : DateTime) (key : String) : Prop :=
  ∃ record ∈ db.suppressions, record.ruleKey = (ruleId, key) ∧ cutoff ≤ record.lastSeenAt

instance (db : Db) (ruleId : Nat) (cutoff : DateTime) (key : String) :
    Decidable (db.Withheld ruleId cutoff key) :=
  inferInstanceAs (Decidable (∃ record ∈ db.suppressions, _))

section

variable (withheld : String → Prop) [DecidablePred withheld] (field : String) (rows : List Row)

/-- The row at this place is kept. -/
def keeps (row : Row) (place : Nat) : Bool :=
  let key := rowSuppressionKey row field
  key = "" ∨ ¬ withheld key ∧ key ∉ (rows.take place).map (rowSuppressionKey · field)

def keptRows : List Row :=
  (rows.zipIdx.filter fun entry => keeps withheld field rows entry.1 entry.2).map Prod.fst

def droppedRows : List Row :=
  (rows.zipIdx.filter fun entry => !keeps withheld field rows entry.1 entry.2).map Prod.fst

end

/-- The result of the filter, and its dictionary. -/
structure FiltersExactly (db : Db) (rule : AlertRule) (cutoff : DateTime) (input kept : List Row)
    (state : SuppressionState) : Prop where
  rows : kept = keptRows (db.Withheld rule.id cutoff) rule.suppressionKeyField input
  newKeys : state.newKeys =
    (kept.map (rowSuppressionKey · rule.suppressionKeyField)).filter (· ≠ "")
  nodup : state.newKeys.Nodup
  suppressedKeys : state.suppressedKeys =
    (droppedRows (db.Withheld rule.id cutoff) rule.suppressionKeyField input).map
      (rowSuppressionKey · rule.suppressionKeyField)
  account : input.Perm
    (kept ++ droppedRows (db.Withheld rule.id cutoff) rule.suppressionKeyField input)

variable {withholds : String → Bool} {withheld : String → Prop} [DecidablePred withheld]
  {field : String} {rows : List Row} {seen : List String} {key : String}

/-! ## The decisions, by place -/

/-- The accumulator `seen_in_run` after the rows `before`. -/
def SeenAfter (withholds : String → Bool) (field : String) (before : List Row)
    (seen : List String) : Prop :=
  ∀ key, key ∈ seen ↔
    key ≠ "" ∧ withholds key = false ∧ key ∈ before.map (rowSuppressionKey · field)

/-- The loop decides by the rows before. -/
theorem filterDecisions_eq (hsame : ∀ key, withholds key = true ↔ withheld key) :
    ∀ (rest before : List Row) (seen : List String), SeenAfter withholds field before seen →
      filterDecisions withholds field seen rest =
        (rest.zipIdx before.length).map fun entry =>
          (entry.1, keeps withheld field (before ++ rest) entry.1 entry.2) := by
  intro rest
  induction rest with
  | nil => exact fun _ _ _ => rfl
  | cons row rest ih =>
      intro before seen hseen
      have hplace : (before ++ row :: rest).take before.length = before := List.take_left' rfl
      have hsplit : before ++ row :: rest = (before ++ [row]) ++ rest := by simp
      have hlength : before.length + 1 = (before ++ [row]).length := by simp
      have hmem : ∀ key, key ∈ (before ++ [row]).map (rowSuppressionKey · field) ↔
          key ∈ before.map (rowSuppressionKey · field) ∨ key = rowSuppressionKey row field := by
        intro key
        rw [List.map_append, List.mem_append, List.map_singleton, List.mem_singleton]
      rw [List.zipIdx_cons, List.map_cons, hlength]
      simp only [filterDecisions]
      have hkeep : keeps withheld field (before ++ row :: rest) row before.length =
          decide (rowSuppressionKey row field = "" ∨ ¬ withheld (rowSuppressionKey row field) ∧
            rowSuppressionKey row field ∉ before.map (rowSuppressionKey · field)) := by
        rw [keeps, hplace]
      rw [hkeep]
      split
      case isTrue hblank =>
        rw [hsplit, ← ih (before ++ [row]) seen, decide_eq_true (.inl hblank)]
        intro key
        rw [hseen key, hmem key]
        refine ⟨fun h => ⟨h.1, h.2.1, .inl h.2.2⟩, ?_⟩
        rintro ⟨hne, hfree, hold | rfl⟩
        · exact ⟨hne, hfree, hold⟩
        · exact absurd hblank hne
      case isFalse hne =>
        split
        case isTrue hdrop =>
          rw [hsplit, ← ih (before ++ [row]) seen, decide_eq_false]
          · rintro (hblank | ⟨hfree, hnew⟩)
            · exact hne hblank
            · rcases hdrop with hold | hheld
              · exact hnew ((hseen _).mp hold).2.2
              · exact hfree ((hsame _).mp hheld)
          · intro key
            rw [hseen key, hmem key]
            refine ⟨fun h => ⟨h.1, h.2.1, .inl h.2.2⟩, ?_⟩
            rintro ⟨hne', hfree, hold | rfl⟩
            · exact ⟨hne', hfree, hold⟩
            · rcases hdrop with hold | hheld
              · exact (hseen _).mp hold
              · rw [hheld] at hfree
                cases hfree
        case isFalse hkeep =>
          rw [not_or] at hkeep
          have hfree : withholds (rowSuppressionKey row field) = false := by simpa using hkeep.2
          have hnew : rowSuppressionKey row field ∉ before.map (rowSuppressionKey · field) :=
            fun hold => hkeep.1 ((hseen _).mpr ⟨hne, hfree, hold⟩)
          have hnot : ¬ withheld (rowSuppressionKey row field) := fun h =>
            hkeep.2 ((hsame _).mpr h)
          rw [hsplit, ← ih (before ++ [row]) (rowSuppressionKey row field :: seen),
            decide_eq_true (.inr ⟨hnot, hnew⟩)]
          intro key
          rw [List.mem_cons, hseen key, hmem key]
          constructor
          · rintro (rfl | ⟨hne', hfree', hold⟩)
            · exact ⟨hne, hfree, .inr rfl⟩
            · exact ⟨hne', hfree', .inl hold⟩
          · rintro ⟨hne', hfree', hold | rfl⟩
            · exact .inr ⟨hne', hfree', hold⟩
            · exact .inl rfl

/-- A key is kept once. -/
theorem keysDecided_nodup (withholds : String → Bool) (field : String) : ∀ (rows : List Row)
    (seen : List String), (keysDecided field true (filterDecisions withholds field seen rows)).Nodup ∧
      ∀ key ∈ keysDecided field true (filterDecisions withholds field seen rows), key ∉ seen := by
  intro rows
  induction rows with
  | nil => exact fun seen => ⟨List.nodup_nil, fun key h => by cases h⟩
  | cons row rows ih =>
      intro seen
      simp only [filterDecisions]
      split
      case isTrue hblank =>
        simp only [keysDecided_cons, hblank, ne_eq, not_true_eq_false, and_false, if_false]
        exact ih seen
      case isFalse hne =>
        split
        case isTrue =>
          simp only [keysDecided_cons, Bool.false_eq_true, false_and, if_false]
          exact ih seen
        case isFalse hkeep =>
          rw [not_or] at hkeep
          obtain ⟨hnodup, hfresh⟩ := ih (rowSuppressionKey row field :: seen)
          simp only [keysDecided_cons, ne_eq, hne, not_false_eq_true, and_self, if_true]
          refine ⟨List.nodup_cons.mpr ⟨fun h => hfresh _ h List.mem_cons_self, hnodup⟩, ?_⟩
          intro key hkey
          rcases List.mem_cons.mp hkey with rfl | hkey
          · exact hkeep.1
          · exact fun h => hfresh key hkey (List.mem_cons_of_mem _ h)

theorem rowsDecided_true (hsame : ∀ key, withholds key = true ↔ withheld key) :
    rowsDecided true (filterDecisions withholds field [] rows) = keptRows withheld field rows := by
  have hstart : SeenAfter withholds field [] [] := fun key => by simp
  rw [filterDecisions_eq hsame rows [] [] hstart, rowsDecided, keptRows, List.filter_map,
    List.map_map]
  simp [Function.comp_def]

theorem rowsDecided_false (hsame : ∀ key, withholds key = true ↔ withheld key) :
    rowsDecided false (filterDecisions withholds field [] rows) =
      droppedRows withheld field rows := by
  have hstart : SeenAfter withholds field [] [] := fun key => by simp
  rw [filterDecisions_eq hsame rows [] [] hstart, rowsDecided, droppedRows, List.filter_map,
    List.map_map]
  simp [Function.comp_def]

/-- A row without a key is not dropped. -/
theorem droppedRows_key : ∀ row ∈ droppedRows withheld field rows,
    rowSuppressionKey row field ≠ "" := by
  intro row hrow hblank
  obtain ⟨entry, hentry, rfl⟩ := List.mem_map.mp hrow
  have hdrop := (List.mem_filter.mp hentry).2
  simp only [keeps, hblank] at hdrop
  simp at hdrop

theorem keptRows_perm :
    rows.Perm (keptRows withheld field rows ++ droppedRows withheld field rows) := by
  have hsplit := List.filter_append_perm
    (fun entry : Row × Nat => keeps withheld field rows entry.1 entry.2) rows.zipIdx
  have hmap := (hsplit.map Prod.fst).symm
  rwa [List.map_append, List.zipIdx_map_fst] at hmap

/-- With one record of each key, the first that is found is the one. -/
theorem withholds_iff {db : Db} {ruleId : Nat} {cutoff : DateTime}
    (hunique : (db.suppressions.map AlertSuppression.ruleKey).Nodup) (key : String) :
    db.withholds ruleId cutoff key = true ↔ db.Withheld ruleId cutoff key := by
  rw [Db.withholds, Db.Withheld]
  cases hfind : db.findSuppression ruleId key with
  | none =>
      refine iff_of_false (by simp) ?_
      rintro ⟨record, hrecord, hkey, -⟩
      exact findSuppression_none hfind record hrecord hkey
  | some found =>
      obtain ⟨hfound, hfoundKey⟩ := findSuppression_some hfind
      simp only [Option.any_some, decide_eq_true_eq]
      constructor
      · exact fun hseen => ⟨found, hfound, hfoundKey, hseen⟩
      · rintro ⟨record, hrecord, hkey, hseen⟩
        rwa [List.inj_on_of_nodup_map hunique hfound hrecord (hfoundKey.trans hkey.symm)]

/-! ## The loop -/

/-- Some operation of the database raises this. -/
def RunEnv.Faults (env : RunEnv) (exc : PyExc) : Prop :=
  ∃ n fault, env.fault n = some fault ∧ fault.exc = exc

variable {env : RunEnv} {rule : AlertRule} {cutoff now : DateTime} {w : World}

/-- Only the lookups can raise. -/
theorem getSuppressionRecord_faults {ruleId : Nat} (hp : w.store.pending = []) :
    wp (getSuppressionRecord env ruleId key) (fun _ w' => w'.store.pending = [])
      (fun exc _ => env.Faults exc) w := by
  simp only [getSuppressionRecord, sessionSelect, sessionExecute, wp_bind]
  refine sessionFlush_wp_nil hp ?_
  simp only [dbOp, wp_bind, wp_get]
  cases hfault : env.fault w.ops with
  | none =>
      simp only [wp_set, wp_bind, wp_get, wp_pure]
      exact hp
  | some fault =>
      simp only [wp_bind, wp_set, wp_throw]
      exact ⟨w.ops, fault, hfault, rfl⟩

theorem filterRow_faults {row : Row} (hp : w.store.pending = []) :
    wp (filterRow env rule cutoff row) (fun _ w' => w'.store.pending = [])
      (fun exc _ => env.Faults exc) w := by
  simp only [filterRow]
  split
  case isTrue =>
    simp only [keepRow, wp_bind, noteAttempt, wp_modify, wp_pure]
    exact hp
  case isFalse =>
    rw [wp_bind]
    refine wp_mono (getSuppressionRecord_faults hp) (fun record w' hp' => ?_) fun _ _ h => h
    rw [wp_bind, wp_get]
    split
    case isTrue =>
      simp only [withholdRow, wp_bind, modifyFilterState, noteAttempt, wp_modify, wp_pure]
      exact hp'
    case isFalse =>
      simp only [keepRow, wp_bind, modifyFilterState, noteAttempt, wp_modify, wp_pure]
      exact hp'

theorem filterRows_faults : ∀ {rows : List Row} {w : World}, w.store.pending = [] →
    wp (filterRows env rule cutoff rows) (fun _ _ => True) (fun exc _ => env.Faults exc) w := by
  intro rows
  induction rows with
  | nil => exact fun _ => trivial
  | cons row rows ih =>
      intro w hp
      rw [filterRows, wp_bind]
      refine wp_mono (filterRow_faults hp) (fun kept w' hp' => ?_) fun _ _ h => h
      rw [wp_bind]
      exact wp_mono (ih hp') (fun _ _ _ => trivial) fun _ _ h => h

/-- The filter of an attempt keeps the rows that it should, in their order, and its dictionary
has their keys and those of the rows it drops; it ends otherwise only when the database raises. -/
theorem filter_exact (rows : List Row) (hp : w.store.pending = [])
    (hstate : w.filterState = some { now := now })
    (hunique : (w.store.work.suppressions.map AlertSuppression.ruleKey).Nodup) :
    wp (filterRows env rule cutoff rows)
      (fun kept w' => ∃ state, w'.filterState = some state ∧
        FiltersExactly w.store.work rule cutoff rows kept state)
      (fun exc _ => env.Faults exc) w := by
  have hsame : ∀ key, w.store.work.withholds rule.id cutoff key = true ↔
      w.store.work.Withheld rule.id cutoff key := withholds_iff hunique
  have hexact : wp (filterRows env rule cutoff rows)
      (fun kept w' => ∃ state, w'.filterState = some state ∧
        FiltersExactly w.store.work rule cutoff rows kept state) (fun _ _ => True) w := by
    refine filterRows_wp hp hstate (fun n decisions hdecisions => ?_) fun _ _ _ _ => trivial
    have hstate' : (w.decided n rule.suppressionKeyField decisions).filterState =
        some (SuppressionState.record { now := now } rule.suppressionKeyField decisions) := by
      rw [World.decided, hstate]
      rfl
    refine ⟨_, hstate', ?_⟩
    subst hdecisions
    have hkept : rowsDecided true (filterDecisions (w.store.work.withholds rule.id cutoff)
        rule.suppressionKeyField [] rows) = _ := rowsDecided_true hsame
    have hdropped : rowsDecided false (filterDecisions (w.store.work.withholds rule.id cutoff)
        rule.suppressionKeyField [] rows) = _ := rowsDecided_false hsame
    refine ⟨hkept, rfl, ?_, ?_, ?_⟩
    · exact (keysDecided_nodup _ _ rows []).1
    · show [] ++ keysDecided _ false _ = _
      rw [List.nil_append, keysDecided, hdropped, List.filter_eq_self]
      intro key hkey
      obtain ⟨row, hrow, rfl⟩ := List.mem_map.mp hkey
      simpa using droppedRows_key row hrow
    · rw [hkept]
      exact keptRows_perm
  exact wp_mono (wp_and hexact (filterRows_faults hp)) (fun _ _ h => h.1) fun _ _ h => h.2

/-- The rule, with nothing in its ledger. -/
def Sample.filtering : World :=
  { World.start Sample.db with filterState := some { now := 100 } }

theorem filter_exact_twice :
    wp (filterRows (Sample.env 100 []) Sample.rule 50
        [Sample.row "a", Sample.row "", Sample.row " a"])
      (fun kept w' => ∃ state, w'.filterState = some state ∧
        FiltersExactly Sample.filtering.store.work Sample.rule 50
          [Sample.row "a", Sample.row "", Sample.row " a"] kept state)
      (fun exc _ => (Sample.env 100 []).Faults exc) Sample.filtering :=
  filter_exact _ rfl rfl List.nodup_nil

end EarlyWarning
