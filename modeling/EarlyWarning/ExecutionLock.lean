/-
# `ExecutionLock` — the two statements behind a rule's execution lease

`app/execution_lock.py`.  The table `ruleexecutionlease` has one row per rule, its
primary key.  An executor takes the lease with one `INSERT … ON CONFLICT (rule_id) DO
UPDATE … WHERE expires_at <= acquired_at` and gives it back with one `DELETE` by rule
and token.  Both are functions of the table here; `LeaseProtocol` interleaves them and
`ExecutionService` runs them on a session.
-/
import EarlyWarning.Models

namespace EarlyWarning

open Lib

abbrev LeaseTable := List RuleExecutionLease

/-- The row `rule_execution_lease` is about to write, from the reading of `now_fn()`. -/
def newLease (ruleId : Nat) (ownerToken : String) (leaseSeconds : Int)
    (acquiredAt : DateTime) : Except PyExc RuleExecutionLease := do
  if leaseSeconds < 1 then
    throw (valueError "lease_seconds must be positive")
  let delta ← DateTime.timedelta (leaseSeconds * DateTime.second)
  let expiresAt ← DateTime.add acquiredAt delta
  return { ruleId, ownerToken, acquiredAt, expiresAt }

/-- The upsert, with its `rowcount`. -/
def acquireStatement (table : LeaseTable) (row : RuleExecutionLease) : LeaseTable × Nat :=
  match table.find? fun held => held.ruleId = row.ruleId with
  | none => (table ++ [row], 1)
  | some held =>
      if held.expiresAt ≤ row.acquiredAt then
        (table.map fun r => if r.ruleId = row.ruleId then row else r, 1)
      else
        (table, 0)

/-- `DELETE … WHERE rule_id = … AND owner_token = …` -/
def releaseStatement (table : LeaseTable) (ruleId : Nat) (ownerToken : String) : LeaseTable :=
  table.filter fun r => ¬ (r.ruleId = ruleId ∧ r.ownerToken = ownerToken)

/-- The primary key of the table. -/
def PrimaryKey (table : LeaseTable) : Prop :=
  (table.map RuleExecutionLease.ruleId).Nodup

theorem PrimaryKey.unique {table : LeaseTable} (hpk : PrimaryKey table)
    {r r' : RuleExecutionLease} (hr : r ∈ table) (hr' : r' ∈ table)
    (h : r.ruleId = r'.ruleId) : r = r' :=
  List.inj_on_of_nodup_map hpk hr hr' h

theorem newLease_ok {ruleId : Nat} {ownerToken : String} {leaseSeconds : Int}
    {acquiredAt : DateTime} {row : RuleExecutionLease}
    (h : newLease ruleId ownerToken leaseSeconds acquiredAt = .ok row) :
    row.ruleId = ruleId ∧ row.ownerToken = ownerToken ∧ row.acquiredAt = acquiredAt := by
  unfold newLease at h
  split at h
  · cases h
  · simp only [bind, Except.bind, pure] at h
    split at h
    · cases h
    · split at h
      · cases h
      · cases h
        exact ⟨rfl, rfl, rfl⟩

/-! ## What the upsert does

Either the table holds an unexpired row of the rule and nothing is written, or every
row of the rule was expired and the new row stands in their place. -/

theorem acquireStatement_cases {table : LeaseTable} (hpk : PrimaryKey table)
    (row : RuleExecutionLease) :
    ((acquireStatement table row).2 = 0 ∧ (acquireStatement table row).1 = table) ∨
    ((acquireStatement table row).2 = 1 ∧
      (∀ r, r ∈ (acquireStatement table row).1 ↔
        r = row ∨ (r ∈ table ∧ r.ruleId ≠ row.ruleId)) ∧
      (∀ held ∈ table, held.ruleId = row.ruleId → held.expiresAt ≤ row.acquiredAt)) := by
  unfold acquireStatement
  cases hf : table.find? fun held => held.ruleId = row.ruleId with
  | none =>
      have hne : ∀ r ∈ table, r.ruleId ≠ row.ruleId := fun r hr => by
        simpa using List.find?_eq_none.mp hf r hr
      refine .inr ⟨rfl, fun r => ?_, fun held hm h => absurd h (hne held hm)⟩
      simp only [List.mem_append, List.mem_singleton]
      constructor
      · rintro (h | h)
        · exact .inr ⟨h, hne r h⟩
        · exact .inl h
      · rintro (h | ⟨h, -⟩)
        · exact .inr h
        · exact .inl h
  | some held =>
      have hmem : held ∈ table := List.mem_of_find?_eq_some hf
      have hrule : held.ruleId = row.ruleId := by simpa using List.find?_some hf
      by_cases hexp : held.expiresAt ≤ row.acquiredAt
      · simp only [hexp, if_true]
        refine .inr ⟨trivial, fun r => ?_, fun held' hm h => ?_⟩
        · simp only [List.mem_map]
          constructor
          · rintro ⟨q, hq, rfl⟩
            by_cases hqr : q.ruleId = row.ruleId
            · exact .inl (if_pos hqr)
            · exact .inr (by rw [if_neg hqr]; exact ⟨hq, hqr⟩)
          · rintro (rfl | ⟨h, hne⟩)
            · exact ⟨held, hmem, if_pos hrule⟩
            · exact ⟨r, h, if_neg hne⟩
        · rw [hpk.unique hm hmem (h.trans hrule.symm)]
          exact hexp
      · simp only [hexp, if_false]
        exact .inl ⟨trivial, trivial⟩

theorem acquireStatement_primaryKey {table : LeaseTable} (hpk : PrimaryKey table)
    (row : RuleExecutionLease) : PrimaryKey (acquireStatement table row).1 := by
  unfold acquireStatement PrimaryKey
  cases hf : table.find? fun held => held.ruleId = row.ruleId with
  | none =>
      have hne : row.ruleId ∉ table.map RuleExecutionLease.ruleId := fun hm => by
        obtain ⟨r, hr, heq⟩ := List.mem_map.mp hm
        simpa using List.find?_eq_none.mp hf r hr (by simpa using heq)
      simpa [List.nodup_append] using ⟨hpk, fun r hr heq => hne (heq ▸ List.mem_map_of_mem hr)⟩
  | some held =>
      have hids : (table.map fun r => if r.ruleId = row.ruleId then row else r).map
          RuleExecutionLease.ruleId = table.map RuleExecutionLease.ruleId := by
        rw [List.map_map]
        refine List.map_congr_left fun r _ => ?_
        by_cases h : r.ruleId = row.ruleId
        · simp [h]
        · simp [h]
      by_cases hexp : held.expiresAt ≤ row.acquiredAt
      · simp only [hexp, if_true, hids]
        exact hpk
      · simp only [hexp, if_false]
        exact hpk

/-! ## What the delete does -/

theorem mem_releaseStatement {table : LeaseTable} {ruleId : Nat} {ownerToken : String}
    {r : RuleExecutionLease} :
    r ∈ releaseStatement table ruleId ownerToken ↔
      r ∈ table ∧ ¬ (r.ruleId = ruleId ∧ r.ownerToken = ownerToken) := by
  simp only [releaseStatement, List.mem_filter, decide_eq_true_eq]

theorem releaseStatement_primaryKey {table : LeaseTable} (hpk : PrimaryKey table)
    (ruleId : Nat) (ownerToken : String) :
    PrimaryKey (releaseStatement table ruleId ownerToken) :=
  hpk.sublist (List.filter_sublist.map _)

end EarlyWarning
