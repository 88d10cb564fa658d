/-
# `History` — runs one after another, and what they leave in the ledger

A history is a list of runs of `execute_rule_by_id`, of any rules, each on the database
the one before left.  Between two runs the rules, the data sources and the SMTP
configurations may be edited (`Config`); nothing else writes the ledger or the logs.

`runEntry_ledger` says what one run does to the ledger: a run that was committed with the
status SUCCESS and suppression on records the keys of its rows, and every other run leaves
the ledger alone.  `ledger_invariant` carries this to histories.
-/
import EarlyWarning.Ledger

namespace EarlyWarning

open Lib

/-! ## Histories -/

/-- The tables the administrators edit. -/
structure Config where
  alertRules : List AlertRule
  sqlDataSources : List SqlDataSource
  smtpConfigs : List SmtpConfig

def Db.configure (db : Db) (config : Config) : Db :=
  { db with
    alertRules := config.alertRules
    sqlDataSources := config.sqlDataSources
    smtpConfigs := config.smtpConfigs }

/-- A run, and the configuration it finds. -/
structure HistoryEntry where
  config : Config
  request : RunRequest
  env : RunEnv

/-- What one run of a history did. -/
structure Report where
  request : RunRequest
  /-- the database the run started on -/
  before : Db
  outcome : Except PyExc ExecutionLog
  world : World

def Report.after (report : Report) : Db := report.world.store.db

def runEntry (libs : Libraries) (db : Db) (entry : HistoryEntry) : Report :=
  let before := db.configure entry.config
  let run := exec (executeRuleById libs entry.env entry.request) (World.start before)
  { request := entry.request, before, outcome := run.1, world := run.2 }

/-- The reports of a history, in order. -/
def runAll (libs : Libraries) : Db → List HistoryEntry → List Report
  | _, [] => []
  | db, entry :: rest =>
      runEntry libs db entry :: runAll libs (runEntry libs db entry).after rest

/-- The database a history leaves. -/
def finalDb (libs : Libraries) : Db → List HistoryEntry → Db
  | db, [] => db
  | db, entry :: rest => finalDb libs (runEntry libs db entry).after rest

theorem runEntry_run (libs : Libraries) (db : Db) (entry : HistoryEntry) :
    RuleRun libs entry.env entry.request (runEntry libs db entry).before
      (runEntry libs db entry).outcome (runEntry libs db entry).world :=
  executeRuleById_run libs entry.env entry.request (db.configure entry.config)

/-! ## Successful runs -/

/-- A run that was committed with the status SUCCESS, of a rule that suppresses
duplicates: the rule, the time its last attempt read and the rows it fetched. -/
def Report.success (report : Report) : Option (AlertRule × DateTime × List Row) := do
  guard (report.after.executionLogs ≠ report.before.executionLogs)
  let rule ← report.before.findRule report.request.ruleId
  guard rule.Suppresses
  let last ← report.world.attempts.head?
  let final ← last.returned
  guard (final.result.status = .success)
  let now ← last.now
  let rows ← last.fetched
  return (rule, now, rows)

/-- The keys of the rows that have one. -/
def suppressionKeys (field : String) (rows : List Row) : List String :=
  (rows.map (rowSuppressionKey · field)).filter (· ≠ "")

theorem keysDecided_perm (field : String) (decisions : List (Row × Bool)) :
    (keysDecided field true decisions ++ keysDecided field false decisions).Perm
      (suppressionKeys field (decisions.map Prod.fst)) := by
  have hsplit : (decisions.filter (fun d => d.2 == true) ++
      decisions.filter fun d => d.2 == false).Perm decisions := by
    have h := List.filter_append_perm (fun d : Row × Bool => d.2 == true) decisions
    have hnot : (fun d : Row × Bool => !(d.2 == true)) = fun d => d.2 == false := by
      funext d
      cases d.2 <;> rfl
    rwa [hnot] at h
  have h := ((hsplit.map Prod.fst).map (rowSuppressionKey · field)).filter (fun k => k ≠ "")
  simpa [keysDecided, rowsDecided, suppressionKeys] using h

variable {libs : Libraries} {db : Db} {rule : AlertRule} {r : AttemptRecord}
  {attempt : ExecutionAttempt}

/-- A successful attempt has filtered its rows, and its dictionary lists their keys. -/
theorem AttemptRecord.Returned.success (h : r.Returned libs db rule attempt)
    (hs : attempt.result.status = .success) :
    ∃ rows kept, r.fetched = some rows ∧ r.filtered = some kept ∧
      ((¬ rule.Suppresses ∧ attempt.suppressionState = none ∧ kept = rows) ∨
        rule.Suppresses ∧ ∃ now, r.now = some now ∧
          r.decisions = suppressionDecisions db rule now rows ∧
          kept = rowsDecided true r.decisions ∧
          attempt.suppressionState = some
            (SuppressionState.record { now } rule.suppressionKeyField r.decisions)) := by
  have hfiltered : ∃ kept, r.filtered = some kept := by
    have hout := h.outcome
    generalize attempt.result = result at hout hs
    cases hout with
    | failed exc _ _ _ _ hstatus =>
        rw [hstatus] at hs
        cases hs
    | empty rows _ hfiltered => exact ⟨[], hfiltered⟩
    | sent rows messages mailResults _ hbuilt =>
        obtain ⟨kept, hkept, -⟩ := h.follows.built messages hbuilt
        exact ⟨kept, hkept⟩
  obtain ⟨kept, hkept⟩ := hfiltered
  obtain ⟨rows, hqueried, hfetched, hcases⟩ := h.follows.filtered kept hkept
  have hstate := h.state (by rw [hs]; decide)
  have hnow := h.follows.now_isSome hqueried
  refine ⟨rows, kept, hfetched, hkept, ?_⟩
  obtain ⟨hnone, -, heq⟩ | ⟨now, hsome, hdec, heq⟩ := hcases
  · refine .inl ⟨fun hsup => ?_, ?_, heq⟩
    · have := hnow.mpr hsup
      simp [hnone] at this
    · rw [hstate, AttemptRecord.suppressionState, hnone]
      rfl
  · refine .inr ⟨hnow.mp (by rw [hsome]; rfl), now, hsome, hdec, heq, ?_⟩
    rw [hstate, AttemptRecord.suppressionState, hsome]
    rfl

/-! ## One run -/

/-- The run was committed with the status SUCCESS and suppression on: its last attempt and
what follows from that. -/
structure Report.Succeeded (libs : Libraries) (report : Report) (rule : AlertRule)
    (now : DateTime) (rows : List Row) (last : AttemptRecord) (earlier : List AttemptRecord)
    (final : ExecutionAttempt) : Prop where
  success : report.success = some (rule, now, rows)
  found : report.before.findRule report.request.ruleId = some rule
  suppresses : rule.Suppresses
  attempts : report.world.attempts = last :: earlier
  returned : last.Returned libs report.before rule final
  status : final.result.status = .success
  now_eq : last.now = some now
  fetched : last.fetched = some rows
  decisions : last.decisions = suppressionDecisions report.before rule now rows
  filtered : last.filtered = some (rowsDecided true last.decisions)
  ledger : report.after.suppressions = (report.before.recordKeys report.request.ruleId now
    (keysDecided rule.suppressionKeyField true last.decisions ++
      keysDecided rule.suppressionKeyField false last.decisions)).suppressions

theorem Report.success_eq_some {report : Report} {now : DateTime} {rows : List Row} :
    report.success = some (rule, now, rows) ↔
      report.after.executionLogs ≠ report.before.executionLogs ∧
      report.before.findRule report.request.ruleId = some rule ∧ rule.Suppresses ∧
      ∃ last earlier final, report.world.attempts = last :: earlier ∧
        last.returned = some final ∧ final.result.status = .success ∧
        last.now = some now ∧ last.fetched = some rows := by
  simp only [Report.success, Option.bind_eq_bind, Option.bind_eq_some_iff, guard]
  simp [List.head?_eq_some_iff]

/-- **What a run does to the ledger.**  Nothing, or it succeeded and records its keys. -/
theorem runEntry_ledger (libs : Libraries) (db : Db) (entry : HistoryEntry) :
    ((runEntry libs db entry).success = none ∧
      (runEntry libs db entry).after.suppressions = db.suppressions) ∨
    ∃ rule now rows last earlier final,
      (runEntry libs db entry).Succeeded libs rule now rows last earlier final := by
  have hrun := runEntry_run libs db entry
  have hbefore : (runEntry libs db entry).before = db.configure entry.config := rfl
  have hrequest : (runEntry libs db entry).request = entry.request := rfl
  generalize runEntry libs db entry = report at hrun hbefore hrequest ⊢
  rw [← hrequest] at hrun
  -- without a new execution log nothing was committed
  have hsame : ∀ leases, report.after = report.before.withLeases leases →
      report.success = none ∧ report.after.suppressions = db.suppressions := by
    intro leases hdb
    refine ⟨?_, by rw [hdb, hbefore]; rfl⟩
    cases hs : report.success with
    | none => rfl
    | some success =>
        exact absurd (by rw [hdb]; rfl) (Report.success_eq_some.mp hs).1
  generalize report.outcome = outcome at hrun
  generalize hworld : report.world = world at hrun
  cases hrun with
  | refused e _ leases _ _ hdb =>
      subst hworld
      exact .inl (hsame leases hdb)
  | ran rule body _ after leases _ hfound _ hbody hdb =>
      subst hworld
      obtain ⟨rfl, -⟩ | ⟨last, earlier, final, hattempts, hend, rfl, -⟩ := hbody.db_cases
      · exact .inl (hsame leases hdb)
      · have hlogs : report.after.executionLogs ≠ report.before.executionLogs := by
          show report.world.store.db.executionLogs ≠ _
          rw [hdb]
          show (Db.storeResult _ _ _ _ _).executionLogs ≠ _
          rw [Db.storeResult_executionLogs]
          simp
        have hledger : report.after.suppressions =
            (report.before.storeSuppression report.request.ruleId final).suppressions := by
          show report.world.store.db.suppressions = _
          rw [hdb]
          show (Db.storeResult _ _ _ _ _).suppressions = _
          rw [Db.storeResult_suppressions, Db.storeSuppression_reported]
        by_cases hstatus : final.result.status = .success
        · obtain ⟨rows, kept, hfetched, hkept, hcases⟩ := hend.returned.success hstatus
          obtain ⟨hoff, hstate, -⟩ | ⟨hon, now, hnow, hdec, rfl, hstate⟩ := hcases
          · left
            refine ⟨?_, ?_⟩
            · cases hs : report.success with
              | none => rfl
              | some success =>
                  obtain ⟨-, hfound', hon, -⟩ := Report.success_eq_some.mp hs
                  rw [hfound] at hfound'
                  cases hfound'
                  exact absurd hon hoff
            · rw [hledger, Db.storeSuppression, hstate, hbefore]
              rfl
          · right
            refine ⟨rule, now, rows, last, earlier, final, ?_⟩
            refine
              { success := Report.success_eq_some.mpr ⟨hlogs, hfound, hon, last, earlier, final,
                  hattempts, hend.returned.returned, hstatus, hnow, hfetched⟩
                found := hfound
                suppresses := hon
                attempts := hattempts
                returned := hend.returned
                status := hstatus
                now_eq := hnow
                fetched := hfetched
                decisions := hdec
                filtered := hkept
                ledger := ?_ }
            rw [hledger, Db.storeSuppression, hstate]
            simp only [hstatus, if_true]
            rfl
        · left
          refine ⟨?_, ?_⟩
          · cases hs : report.success with
            | none => rfl
            | some success =>
                obtain ⟨-, -, -, last', earlier', final', hattempts', hret, hstatus', -⟩ :=
                  Report.success_eq_some.mp hs
                rw [hattempts] at hattempts'
                cases hattempts'
                rw [hend.returned.returned] at hret
                cases hret
                exact absurd hstatus' hstatus
          · rw [hledger, Db.storeSuppression, hbefore]
            split
            · rw [if_neg hstatus]
              rfl
            · rfl

theorem Db.sighting_congr {db db' : Db} (h : db.suppressions = db'.suppressions) (ruleId : Nat)
    (key : String) : db.sighting ruleId key = db'.sighting ruleId key := by
  simp only [Db.sighting, Db.findSuppression, h]

/-- The number of rows with a key. -/
def keyCount (field : String) (rows : List Row) (key : String) : Nat :=
  rows.countP fun row => rowSuppressionKey row field = key

theorem suppressionKeys_count {field key : String} (rows : List Row) (hkey : key ≠ "") :
    (suppressionKeys field rows).count key = keyCount field rows key := by
  unfold suppressionKeys keyCount
  rw [List.count_filter (by simpa using hkey), List.count_eq_countP, List.countP_map]
  refine List.countP_congr fun row _ => ?_
  simp

section

variable {report : Report} {now : DateTime} {rows : List Row} {last : AttemptRecord}
  {earlier : List AttemptRecord} {final : ExecutionAttempt}

/-- A successful run sees each key as often as its rows have it, and no other rule's. -/
theorem Report.Succeeded.sighting
    (h : report.Succeeded libs rule now rows last earlier final)
    (hok : LedgerOk report.before.suppressions) (ruleId : Nat) {key : String} (hkey : key ≠ "") :
    report.after.sighting ruleId key =
      if ruleId = report.request.ruleId then
        (see now)^[keyCount rule.suppressionKeyField rows key] (report.before.sighting ruleId key)
      else report.before.sighting ruleId key := by
  rw [Db.sighting_congr h.ledger, Db.recordKeys_sighting _ _ hok]
  have hrows : last.decisions.map Prod.fst = rows := by
    rw [h.decisions]
    exact filterDecisions_rows [] rows
  have hcount := (keysDecided_perm rule.suppressionKeyField last.decisions).count_eq key
  rw [hrows, suppressionKeys_count rows hkey] at hcount
  rw [hcount]

end

theorem runEntry_before (libs : Libraries) (db : Db) (entry : HistoryEntry) :
    (runEntry libs db entry).before.suppressions = db.suppressions := rfl

/-- A run keeps the ledger in order. -/
theorem runEntry_ledgerOk (libs : Libraries) (db : Db) (entry : HistoryEntry)
    (h : LedgerOk db.suppressions) : LedgerOk (runEntry libs db entry).after.suppressions := by
  obtain ⟨-, hsame⟩ | ⟨rule, now, rows, last, earlier, final, hs⟩ := runEntry_ledger libs db entry
  · exact hsame ▸ h
  · rw [hs.ledger]
    exact Db.recordKeys_ledgerOk _ h

/-! ## Histories of runs -/

/-- What every run keeps of the ledger holds before and after every run of a history, and
at its end. -/
theorem history_invariant {P : List AlertSuppression → Prop}
    (hstep : ∀ db entry, P db.suppressions → P (runEntry libs db entry).after.suppressions) :
    ∀ (entries : List HistoryEntry) {db : Db}, P db.suppressions →
      (∀ report ∈ runAll libs db entries, P report.before.suppressions) ∧
      P (finalDb libs db entries).suppressions
  | [], _, h => ⟨fun _ hm => absurd hm List.not_mem_nil, h⟩
  | entry :: rest, db, h => by
      obtain ⟨hreports, hfinal⟩ :=
        history_invariant hstep rest (hstep db entry h)
      refine ⟨fun report hm => ?_, hfinal⟩
      obtain rfl | hm := List.mem_cons.mp hm
      · exact h
      · exact hreports report hm

/-- The reports of a history are reports of runs. -/
theorem mem_runAll : ∀ {entries : List HistoryEntry} {db : Db} {report : Report},
    report ∈ runAll libs db entries →
      ∃ db' entry, entry ∈ entries ∧ report = runEntry libs db' entry
  | [], _, _, hm => absurd hm List.not_mem_nil
  | entry :: rest, db, report, hm => by
      obtain rfl | hm := List.mem_cons.mp hm
      · exact ⟨db, entry, List.mem_cons_self, rfl⟩
      · obtain ⟨db', entry', hentry, hreport⟩ := mem_runAll hm
        exact ⟨db', entry', List.mem_cons_of_mem _ hentry, hreport⟩

/-- The rows of a successful run of the rule with this key. -/
def Report.rowsWithKey (report : Report) (ruleId : Nat) (key : String) : Nat :=
  match report.success with
  | some (rule, _, rows) =>
      if ruleId = report.request.ruleId then keyCount rule.suppressionKeyField rows key else 0
  | none => 0

/-- The hits of a key, 0 when the ledger does not know it. -/
def Db.hits (db : Db) (ruleId : Nat) (key : String) : Int :=
  (db.sighting ruleId key).elim 0 (·.hitCount)

theorem runEntry_hits (libs : Libraries) (db : Db) (entry : HistoryEntry)
    (hok : LedgerOk db.suppressions) (ruleId : Nat) {key : String} (hkey : key ≠ "") :
    (runEntry libs db entry).after.hits ruleId key =
      db.hits ruleId key + (runEntry libs db entry).rowsWithKey ruleId key := by
  have hbefore : (runEntry libs db entry).before.sighting ruleId key = db.sighting ruleId key :=
    Db.sighting_congr (runEntry_before libs db entry) ruleId key
  obtain ⟨hnone, hsame⟩ | ⟨rule, now, rows, last, earlier, final, hs⟩ := runEntry_ledger libs db entry
  · rw [Db.hits, Db.sighting_congr hsame, Report.rowsWithKey, hnone]
    exact (Int.add_zero _).symm
  · rw [Db.hits, hs.sighting hok ruleId hkey, hbefore, Report.rowsWithKey, hs.success]
    by_cases hrule : ruleId = (runEntry libs db entry).request.ruleId
    · simp only [hrule, if_true]
      rw [see_iterate, Db.hits]
      by_cases hzero : keyCount rule.suppressionKeyField rows key = 0
      · simp [hzero]
      · simp [hzero]
    · simp only [hrule, if_false]
      exact (Int.add_zero _).symm

/-- The hits of a key are counted over the runs of a history. -/
theorem history_hits (ruleId : Nat) {key : String} (hkey : key ≠ "") :
    ∀ {entries : List HistoryEntry} {db : Db}, LedgerOk db.suppressions →
      (finalDb libs db entries).hits ruleId key = db.hits ruleId key +
        (((runAll libs db entries).map fun report => report.rowsWithKey ruleId key).sum : Nat)
  | [], db, _ => by simp [finalDb, runAll]
  | entry :: rest, db, h => by
      show (finalDb libs (runEntry libs db entry).after rest).hits ruleId key = _
      rw [history_hits ruleId hkey (runEntry_ledgerOk libs db entry h),
        runEntry_hits libs db entry h ruleId hkey]
      simp [runAll, Int.add_assoc]

/-- A run whose last attempt did not succeed is no success. -/
theorem Report.success_none {report : Report}
    (h : ∀ last final, report.world.attempts.head? = some last → last.returned = some final →
      final.result.status ≠ .success) : report.success = none := by
  cases hs : report.success with
  | none => rfl
  | some success =>
      obtain ⟨-, -, -, last, earlier, final, hattempts, hret, hstatus, -⟩ :=
        Report.success_eq_some.mp hs
      exact absurd hstatus (h last final (by rw [hattempts]; rfl) hret)

/-- **The ledger.**  In every history that starts with an empty ledger:

  * there is at most one record for a rule and a key;
  * a successful run adds to the hits of each key the number of its rows with that key, sets
    the time the key was last seen to the time its attempt read, and keeps the time it was
    first seen, or sets it when the key is new; other keys and rules keep their records;
  * a run that was not committed, or whose last attempt failed in whole or in part, changes
    no record;
  * the hits of a key are the rows with that key over all successful runs. -/
theorem ledger_invariant (libs : Libraries) (db : Db) (entries : List HistoryEntry) :
    let start := { db with suppressions := [] }
    let reports := runAll libs start entries
    let final := finalDb libs start entries
    (final.suppressions.map AlertSuppression.ruleKey).Nodup ∧
    (∀ report ∈ reports, ∀ rule now rows, report.success = some (rule, now, rows) →
      ∀ ruleId key, key ≠ "" →
        let old := report.before.sighting ruleId key
        let n := keyCount rule.suppressionKeyField rows key
        report.after.sighting ruleId key =
          if ruleId = report.request.ruleId ∧ 0 < n then
            some {
              firstSeenAt := old.elim now (·.firstSeenAt)
              lastSeenAt := now
              hitCount := old.elim 0 (·.hitCount) + n }
          else old) ∧
    (∀ report ∈ reports,
      report.success = none ∨ (∀ last attempt, report.world.attempts.head? = some last →
        last.returned = some attempt → attempt.result.status ≠ .success) →
      report.after.suppressions = report.before.suppressions) ∧
    (∀ ruleId key, key ≠ "" → final.hits ruleId key =
      ((reports.map fun report => report.rowsWithKey ruleId key).sum : Nat)) := by
  intro start reports final
  have hempty : LedgerOk start.suppressions := ⟨List.nodup_nil, List.nodup_nil⟩
  obtain ⟨hbefore, hfinal⟩ := history_invariant (P := LedgerOk)
    (runEntry_ledgerOk libs) entries hempty
  refine ⟨hfinal.keys, fun report hm rule now rows hs ruleId key hkey => ?_,
    fun report hm hnot => ?_, fun ruleId key hkey => ?_⟩
  · have hok := hbefore report hm
    obtain ⟨db', entry, -, rfl⟩ := mem_runAll hm
    obtain ⟨hnone, -⟩ | ⟨rule', now', rows', last, earlier, attempt, hsucc⟩ :=
      runEntry_ledger libs db' entry
    · rw [hnone] at hs
      cases hs
    · rw [hsucc.success] at hs
      cases hs
      simp only
      rw [hsucc.sighting hok ruleId hkey, see_iterate]
      by_cases hrule : ruleId = (runEntry libs db' entry).request.ruleId
      · by_cases hzero : keyCount rule.suppressionKeyField rows key = 0
        · simp [hrule, hzero]
        · simp [hrule, hzero, Nat.pos_of_ne_zero hzero]
      · simp [hrule]
  · have hnone : report.success = none := hnot.elim id Report.success_none
    obtain ⟨db', entry, -, rfl⟩ := mem_runAll hm
    obtain ⟨-, hsame⟩ | ⟨rule', now', rows', last, earlier, attempt, hsucc⟩ :=
      runEntry_ledger libs db' entry
    · exact hsame
    · rw [hsucc.success] at hnone
      cases hnone
  · rw [history_hits ruleId hkey hempty]
    exact Int.zero_add _

end EarlyWarning
