/-
# `SuppressionMigration` — which duplicate survives an upgrade

`_migrate_sqlite_schema` makes `(rule_id, suppression_key)` unique: of the rows of one rule
and key it keeps the one with the greatest id.  The filter asks another column: a key is
withheld while its `last_seen_at` is not before the cutoff.  The two agree on a rule and key
exactly when the row of greatest id is also the one seen last (`migration_remembers`).
-/
import EarlyWarning.FilterExact
import EarlyWarning.Lib.GroupMax
import Mathlib.Data.Nat.Basic

namespace EarlyWarning.SuppressionMigration

open Lib

/-- The `DELETE` of `_migrate_sqlite_schema` on `alertsuppression`. -/
def dedupeSuppressions (records : List AlertSuppression) : List AlertSuppression :=
  keepGroupMaxima AlertSuppression.ruleKey AlertSuppression.id records

/-- The database after it. -/
def migrated (db : Db) : Db := { db with suppressions := dedupeSuppressions db.suppressions }

/-- The rows of one rule and key. -/
def rowsOf (records : List AlertSuppression) (ruleId : Nat) (key : String) :
    List AlertSuppression :=
  records.filter fun record => record.ruleKey = (ruleId, key)

/-- Whatever some row of the rule and key justified withholding, the single row left
justifies, and the filter withholds it. -/
def Remembers (db : Db) (ruleId : Nat) (key : String) : Prop :=
  ∀ cutoff, db.Withheld ruleId cutoff key →
    (∃ survivor, rowsOf (migrated db).suppressions ruleId key = [survivor] ∧
      cutoff ≤ survivor.lastSeenAt) ∧
    (migrated db).withholds ruleId cutoff key = true

/-- Of the rows of the rule and key, the one with the greatest id was seen last. -/
def GreatestSeenLast (records : List AlertSuppression) (ruleId : Nat) (key : String) : Prop :=
  ∀ greatest ∈ rowsOf records ruleId key,
    (∀ record ∈ rowsOf records ruleId key, record.id ≤ greatest.id) →
    ∀ record ∈ rowsOf records ruleId key, record.lastSeenAt ≤ greatest.lastSeenAt

section

variable {records : List AlertSuppression} {ruleId : Nat} {key : String}
  {record : AlertSuppression}

theorem mem_rowsOf :
    record ∈ rowsOf records ruleId key ↔ record ∈ records ∧ record.ruleKey = (ruleId, key) := by
  rw [rowsOf, List.mem_filter, decide_eq_true_eq]

/-- The rows left of a rule and key: the one of greatest id and no other. -/
theorem rowsOf_dedupe (hids : (records.map AlertSuppression.id).Nodup)
    (hrecord : record ∈ rowsOf records ruleId key)
    (hmax : ∀ other ∈ rowsOf records ruleId key, other.id ≤ record.id) :
    rowsOf (dedupeSuppressions records) ruleId key = [record] := by
  obtain ⟨hmem, hkey⟩ := mem_rowsOf.mp hrecord
  have hkept : record ∈ rowsOf (dedupeSuppressions records) ruleId key :=
    mem_rowsOf.mpr ⟨(mem_keepGroupMaxima hids).mpr ⟨hmem, fun other hother hsame =>
      hmax other (mem_rowsOf.mpr ⟨hother, hsame.trans hkey⟩)⟩, hkey⟩
  have honly : ∀ other ∈ rowsOf (dedupeSuppressions records) ruleId key, other = record := by
    intro other hother
    obtain ⟨hother, hsame⟩ := mem_rowsOf.mp hother
    exact keepGroupMaxima_unique hids (mem_rowsOf.mp hkept).1 hother (hsame.trans hkey.symm)
  have hnodup : (rowsOf (dedupeSuppressions records) ruleId key).Nodup :=
    ((List.Nodup.of_map _ hids).sublist keepGroupMaxima_sublist).filter _
  exact eq_singleton_of_nodup hnodup hkept honly

/-- With rows of a rule and key, one has the greatest id. -/
theorem exists_greatest_id (hrecord : record ∈ rowsOf records ruleId key) :
    ∃ greatest ∈ rowsOf records ruleId key,
      ∀ other ∈ rowsOf records ruleId key, other.id ≤ greatest.id :=
  exists_rank_max (List.ne_nil_of_mem hrecord)

end

/-- **What the upgrade forgets.**  The migration remembers a rule's key exactly when the row
of greatest id among its rows was seen last. -/
theorem migration_remembers {db : Db} (hids : (db.suppressions.map AlertSuppression.id).Nodup)
    (ruleId : Nat) (key : String) :
    Remembers db ruleId key ↔ GreatestSeenLast db.suppressions ruleId key := by
  constructor
  · intro hremembers greatest hgreatest hmax record hrecord
    obtain ⟨hmem, hkey⟩ := mem_rowsOf.mp hrecord
    obtain ⟨⟨survivor, hrows, hseen⟩, -⟩ :=
      hremembers record.lastSeenAt ⟨record, hmem, hkey, Int.le_refl _⟩
    have hsurvivor : survivor = greatest := by
      have hone := hrows.symm.trans (rowsOf_dedupe hids hgreatest hmax)
      exact (List.cons.inj hone).1
    exact hsurvivor ▸ hseen
  · rintro hlast cutoff ⟨record, hmem, hkey, hseen⟩
    have hrecord : record ∈ rowsOf db.suppressions ruleId key := mem_rowsOf.mpr ⟨hmem, hkey⟩
    obtain ⟨greatest, hgreatest, hmax⟩ := exists_greatest_id hrecord
    have hrows : rowsOf (migrated db).suppressions ruleId key = [greatest] :=
      rowsOf_dedupe hids hgreatest hmax
    have hcutoff : cutoff ≤ greatest.lastSeenAt :=
      Int.le_trans hseen (hlast greatest hgreatest hmax record hrecord)
    refine ⟨⟨greatest, hrows, hcutoff⟩, ?_⟩
    have hunique : ((migrated db).suppressions.map AlertSuppression.ruleKey).Nodup :=
      nodup_keepGroupMaxima hids
    obtain ⟨hkept, hsame⟩ := mem_rowsOf.mp (hrows ▸ List.mem_singleton_self greatest)
    exact (withholds_iff hunique key).mpr ⟨greatest, hkept, hsame, hcutoff⟩

/-! ## Two rows of one key

Two executions of rule 1 have each added a row for the key `a`.  Every later execution
updates the first one, so that the second has stayed where it was. -/

def firstRow (lastSeenAt : DateTime) : AlertSuppression :=
  { id := 1, ruleId := 1, suppressionKey := "a", firstSeenAt := 0, lastSeenAt, hitCount := 3 }

def secondRow : AlertSuppression :=
  { id := 2, ruleId := 1, suppressionKey := "a", firstSeenAt := 0, lastSeenAt := 10 }

def duplicates (lastSeenAt : DateTime) : Db :=
  { Sample.db with suppressions := [firstRow lastSeenAt, secondRow] }

theorem migration_remembers_duplicates : Remembers (duplicates 5) 1 "a" :=
  (migration_remembers (by decide) 1 "a").mpr (by
    simp only [GreatestSeenLast]
    decide)

/-- The key was seen at 100, and after the migration the filter does not withhold it for the
cutoff 50. -/
theorem forgotten_suppression :
    (duplicates 100).Withheld 1 50 "a" ∧
      rowsOf (migrated (duplicates 100)).suppressions 1 "a" = [secondRow] ∧
      (migrated (duplicates 100)).withholds 1 50 "a" = false := by
  decide

end EarlyWarning.SuppressionMigration
