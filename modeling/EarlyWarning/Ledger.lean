/-
# `Ledger` — the suppression table as a map from keys to sightings

What the table `alertsuppression` is for: for each rule and key, when the key was first
and last seen and how often (`Sighting`).  A run that records keys applies `see` once for
each occurrence, whatever their order; `recordKeys_sighting` says that the code does this,
for every multiset of keys — a key that occurs several times is inserted and then
incremented within one transaction.

The table implements the map as long as its ids and its pairs of rule and key are unique
(`LedgerOk`), which every write of the program keeps.
-/
import EarlyWarning.RetrySafety
import Mathlib.Algebra.GroupWithZero.Nat
import Mathlib.Logic.Function.Iterate

namespace EarlyWarning

open Lib

/-! ## Sightings -/

/-- What the ledger knows of one key of one rule. -/
structure Sighting where
  firstSeenAt : DateTime
  lastSeenAt : DateTime
  hitCount : Int
deriving DecidableEq

/-- The key is seen at the time `now`. -/
def see (now : DateTime) : Option Sighting → Option Sighting
  | none => some { firstSeenAt := now, lastSeenAt := now, hitCount := 1 }
  | some s => some { s with lastSeenAt := now, hitCount := s.hitCount + 1 }

/-- Seen `n` times at the same time. -/
theorem see_iterate (now : DateTime) (s : Option Sighting) : ∀ n : Nat,
    (see now)^[n] s =
      if n = 0 then s
      else some {
        firstSeenAt := s.elim now (·.firstSeenAt)
        lastSeenAt := now
        hitCount := s.elim 0 (·.hitCount) + n } := by
  intro n
  induction n with
  | zero => rfl
  | succ n ih =>
      rw [Function.iterate_succ_apply', ih]
      cases s with
      | none =>
          by_cases hn : n = 0
          · simp [hn, see]
          · simp [hn, see]
      | some s =>
          by_cases hn : n = 0
          · simp [hn, see]
          · simp [hn, see, Int.add_assoc]

def AlertSuppression.sighting (record : AlertSuppression) : Sighting :=
  { firstSeenAt := record.firstSeenAt, lastSeenAt := record.lastSeenAt
    hitCount := record.hitCount }

/-- The sighting of a key that the table holds. -/
def Db.sighting (db : Db) (ruleId : Nat) (key : String) : Option Sighting :=
  (db.findSuppression ruleId key).map AlertSuppression.sighting

/-! ## The table -/

/-- What `uq_alertsuppression_rule_key` speaks of. -/
def AlertSuppression.ruleKey (record : AlertSuppression) : Nat × String :=
  (record.ruleId, record.suppressionKey)

/-- Ids are unique, and so are the pairs of rule and key. -/
structure LedgerOk (records : List AlertSuppression) : Prop where
  ids : (records.map (·.id)).Nodup
  keys : (records.map AlertSuppression.ruleKey).Nodup

section

variable {db : Db} {ruleId : Nat} {now : DateTime} {key : String}

theorem findSuppression_some {record : AlertSuppression}
    (h : db.findSuppression ruleId key = some record) :
    record ∈ db.suppressions ∧ record.ruleKey = (ruleId, key) := by
  refine ⟨List.mem_of_find?_eq_some h, ?_⟩
  have hp := List.find?_some h
  simp only [decide_eq_true_eq] at hp
  exact Prod.ext hp.1 hp.2

theorem findSuppression_none (h : db.findSuppression ruleId key = none) :
    ∀ record ∈ db.suppressions, record.ruleKey ≠ (ruleId, key) := by
  intro record hm heq
  have hp := List.find?_eq_none.mp h record hm
  simp only [decide_eq_true_eq] at hp
  exact hp ⟨congrArg Prod.fst heq, congrArg Prod.snd heq⟩

/-- An update by id is an update of the record found. -/
theorem ids_unique (h : LedgerOk db.suppressions) {r r' : AlertSuppression}
    (hr : r ∈ db.suppressions) (hr' : r' ∈ db.suppressions) (hid : r.id = r'.id) : r = r' :=
  List.inj_on_of_nodup_map h.ids hr hr' hid

/-- Recording a key keeps the table in order. -/
theorem Db.recordKey_ledgerOk (h : LedgerOk db.suppressions) :
    LedgerOk (db.recordKey ruleId now key).suppressions := by
  unfold Db.recordKey
  cases hfind : db.findSuppression ruleId key with
  | none =>
      have hnew := findSuppression_none hfind
      refine ⟨?_, ?_⟩
      · simp only [Db.write, List.map_append, List.map_cons, List.map_nil]
        rw [List.nodup_append]
        refine ⟨h.ids, List.nodup_singleton _, fun i hi j hj heq => ?_⟩
        rw [List.mem_singleton.mp hj] at heq
        exact nextId_not_mem _ (heq ▸ hi)
      · simp only [Db.write, List.map_append, List.map_cons, List.map_nil]
        rw [List.nodup_append]
        refine ⟨h.keys, List.nodup_singleton _, fun p hp q hq heq => ?_⟩
        obtain ⟨record, hm, rfl⟩ := List.mem_map.mp hp
        rw [List.mem_singleton.mp hq] at heq
        exact hnew record hm heq
  | some record =>
      refine ⟨?_, ?_⟩
      · have hids : ((db.write (.updateSuppression record.id now
            (record.hitCount + 1))).suppressions.map (·.id)) = db.suppressions.map (·.id) := by
          simp only [Db.write, List.map_map]
          refine List.map_congr_left fun s _ => ?_
          by_cases hs : s.id = record.id <;> simp [hs]
        simp only
        rw [hids]
        exact h.ids
      · have hkeys : ((db.write (.updateSuppression record.id now
            (record.hitCount + 1))).suppressions.map AlertSuppression.ruleKey) =
            db.suppressions.map AlertSuppression.ruleKey := by
          simp only [Db.write, List.map_map]
          refine List.map_congr_left fun s _ => ?_
          by_cases hs : s.id = record.id <;> simp [hs, AlertSuppression.ruleKey]
        simp only
        rw [hkeys]
        exact h.keys

/-- **Recording a key is seeing it**, and changes no other sighting. -/
theorem Db.recordKey_sighting (h : LedgerOk db.suppressions) (ruleId' : Nat) (key' : String) :
    (db.recordKey ruleId now key).sighting ruleId' key' =
      if ruleId' = ruleId ∧ key' = key then see now (db.sighting ruleId key)
      else db.sighting ruleId' key' := by
  unfold Db.recordKey
  cases hfind : db.findSuppression ruleId key with
  | none =>
      simp only [Db.sighting, Db.findSuppression, Db.write, List.find?_append]
      by_cases hkey : ruleId' = ruleId ∧ key' = key
      · obtain ⟨rfl, rfl⟩ := hkey
        have hnone : db.suppressions.find? (fun s => s.ruleId = ruleId' ∧ s.suppressionKey = key') =
            none := hfind
        rw [hnone]
        simp [see, AlertSuppression.sighting]
      · have hkey' : ¬ (ruleId = ruleId' ∧ key = key') := fun h => hkey ⟨h.1.symm, h.2.symm⟩
        simp [hkey, hkey']
  | some record =>
      obtain ⟨hmem, hrecord⟩ := findSuppression_some hfind
      -- the update keeps rule and key of every record, so the search finds the same one
      have hsearch : (db.write (.updateSuppression record.id now
          (record.hitCount + 1))).findSuppression ruleId' key' =
          (db.findSuppression ruleId' key').map fun s =>
            if s.id = record.id then
              { s with lastSeenAt := now, hitCount := record.hitCount + 1 } else s := by
        simp only [Db.findSuppression, Db.write, List.find?_map]
        congr 2
        funext s
        by_cases hs : s.id = record.id <;> simp [hs]
      simp only [Db.sighting, hsearch, Option.map_map]
      by_cases hkey : ruleId' = ruleId ∧ key' = key
      · obtain ⟨rfl, rfl⟩ := hkey
        simp [hfind, see, AlertSuppression.sighting]
      · rw [if_neg hkey]
        cases hother : db.findSuppression ruleId' key' with
        | none => rfl
        | some other =>
            obtain ⟨homem, hokey⟩ := findSuppression_some hother
            have hne : other.id ≠ record.id := fun hid => by
              rw [ids_unique h homem hmem hid, hrecord] at hokey
              cases hokey
              exact hkey ⟨rfl, rfl⟩
            simp [hne]

/-- Recording keys keeps the table in order. -/
theorem Db.recordKeys_ledgerOk : ∀ (keys : List String) {db : Db}, LedgerOk db.suppressions →
    LedgerOk (db.recordKeys ruleId now keys).suppressions
  | [], _, h => h
  | _ :: keys, _, h => recordKeys_ledgerOk keys (recordKey_ledgerOk h)

/-- **Recording keys is seeing each as often as it occurs.** -/
theorem Db.recordKeys_sighting (ruleId' : Nat) (key' : String) :
    ∀ {keys : List String} {db : Db}, LedgerOk db.suppressions →
      (db.recordKeys ruleId now keys).sighting ruleId' key' =
        if ruleId' = ruleId then (see now)^[keys.count key'] (db.sighting ruleId' key')
        else db.sighting ruleId' key'
  | [], db, _ => by simp [Db.recordKeys]
  | key :: keys, db, h => by
      show ((db.recordKey ruleId now key).recordKeys ruleId now keys).sighting ruleId' key' = _
      rw [recordKeys_sighting ruleId' key' (recordKey_ledgerOk h), recordKey_sighting h]
      by_cases hrule : ruleId' = ruleId
      · subst hrule
        by_cases hkey : key' = key
        · subst hkey
          rw [if_pos rfl, if_pos ⟨rfl, rfl⟩, if_pos rfl, List.count_cons_self,
            Function.iterate_succ_apply]
        · have hcount : (key :: keys).count key' = keys.count key' :=
            List.count_cons_of_ne (fun h => hkey h.symm)
          rw [if_pos rfl, if_neg (fun h => hkey h.2), if_pos rfl, hcount]
      · rw [if_neg hrule, if_neg (fun h => hrule h.1), if_neg hrule]

end

end EarlyWarning
