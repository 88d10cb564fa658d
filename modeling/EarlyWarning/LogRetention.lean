/-
# `LogRetention` — the cleanup of expired logs, batch by batch

`cleanup_expired_logs` of `app/log_service.py` deletes in batches until a query finds no expired
execution: each batch is a transaction of its own, and an exception in one leaves those before it
committed.  A run is a function of what its statements raise, and it keeps every database that it
commits (`CleanupRun.commits`).

Everything follows from what the batches have deleted: after `m` of them, the first `m * size`
of the expired ids in ascending order with their mail logs (`cleanupBatches_spec`).  What is left
to a second run is then the rest of the same ids.
-/
import EarlyWarning.Models
import EarlyWarning.Lib.Wp
import Mathlib.Data.List.Sort

namespace EarlyWarning.LogRetention

open Lib

/-- `DEFAULT_CLEANUP_BATCH_SIZE` -/
def defaultCleanupBatchSize : Nat := 500

/-! ## The two logs -/

/-- An `ExecutionLog`; `columns` is what the cleanup does not read. -/
structure ExecutionRow (α : Type) where
  id : Nat
  status : ExecutionStatus
  finishedAt : Option DateTime
  columns : α
deriving DecidableEq

/-- A `MailLog`. -/
structure MailRow (β : Type) where
  executionLogId : Nat
  columns : β
deriving DecidableEq

/-- The database of the logs, with its other tables. -/
structure LogDb (α β γ : Type) where
  executionLogs : List (ExecutionRow α)
  mailLogs : List (MailRow β)
  others : γ
  /-- the primary key -/
  nodup : (executionLogs.map ExecutionRow.id).Nodup

section

variable {α β γ : Type}

/-- Every mail log refers to an execution log. -/
def LogDb.Linked (db : LogDb α β γ) : Prop :=
  ∀ mail ∈ db.mailLogs, mail.executionLogId ∈ db.executionLogs.map ExecutionRow.id

/-- `finished_at < cutoff` and `status != RUNNING`; an execution that has not finished has no
`finished_at`. -/
def ExecutionRow.Expired (cutoff : DateTime) (log : ExecutionRow α) : Prop :=
  (∃ finishedAt, log.finishedAt = some finishedAt ∧ finishedAt < cutoff) ∧ log.status ≠ .running

instance (cutoff : DateTime) (log : ExecutionRow α) : Decidable (log.Expired cutoff) :=
  match h : log.finishedAt with
  | none => isFalse fun hexp => by
      obtain ⟨⟨finishedAt, hsome, -⟩, -⟩ := hexp
      rw [h] at hsome
      cases hsome
  | some finishedAt => decidable_of_iff (finishedAt < cutoff ∧ log.status ≠ .running) (by
      simp [ExecutionRow.Expired, h])

/-- `select(ExecutionLog.id).where(…).order_by(ExecutionLog.id)`, before the limit. -/
def expiredIds (cutoff : DateTime) (db : LogDb α β γ) : List Nat :=
  ((db.executionLogs.filter fun log => log.Expired cutoff).map ExecutionRow.id).insertionSort
    (· ≤ ·)

/-- `delete(MailLog).where(MailLog.execution_log_id.in_(ids))` -/
def LogDb.deleteMailLogs (ids : List Nat) (db : LogDb α β γ) : LogDb α β γ :=
  { db with mailLogs := db.mailLogs.filter fun mail => mail.executionLogId ∉ ids }

/-- `delete(ExecutionLog).where(ExecutionLog.id.in_(ids))` -/
def LogDb.deleteExecutionLogs (ids : List Nat) (db : LogDb α β γ) : LogDb α β γ :=
  { db with
    executionLogs := db.executionLogs.filter fun log => log.id ∉ ids
    nodup := db.nodup.sublist (List.filter_sublist.map _) }

/-! ## The cleanup -/

def foreignKeyError : PyExc :=
  ⟨.exception, "IntegrityError", "FOREIGN KEY constraint failed", none, integrityError_typeName_ne,
    nofun⟩

/-- The `n`-th statement of a batch raises, or it does not. -/
def statement (fault : Nat → Option PyExc) (n : Nat) : Prog (LogDb α β γ) PyExc Unit :=
  match fault n with
  | some exc => throw exc
  | none => pure ()

/-- The transaction of one batch; it returns how many execution logs it deletes. -/
def cleanupBatch (fault : Nat → Option PyExc) (cutoff : DateTime) (size : Nat) :
    Prog (LogDb α β γ) PyExc Nat := do
  statement fault 0
  let executionIds := (expiredIds cutoff (← get)).take size
  if executionIds = [] then
    return 0
  statement fault 1
  modify (LogDb.deleteMailLogs executionIds)
  statement fault 2
  -- `PRAGMA foreign_keys=ON`
  if (← get).mailLogs.any fun mail => mail.executionLogId ∈ executionIds then
    throw foreignKeyError
  modify (LogDb.deleteExecutionLogs executionIds)
  statement fault 3
  return executionIds.length

/-- The batch in a session of its own: committed when it ends, rolled back when it raises. -/
def runBatch (fault : Nat → Option PyExc) (cutoff : DateTime) (size : Nat) (db : LogDb α β γ) :
    Except PyExc Nat × LogDb α β γ :=
  match exec (cleanupBatch fault cutoff size) db with
  | (.ok count, work) => (.ok count, work)
  | (.error exc, _) => (.error exc, db)

/-- The database without these executions and their mail logs. -/
def LogDb.without (ids : List Nat) (db : LogDb α β γ) : LogDb α β γ :=
  (db.deleteMailLogs ids).deleteExecutionLogs ids

variable {fault : Nat → Option PyExc} {cutoff : DateTime} {size : Nat} {db db' : LogDb α β γ}
  {ids : List Nat}

@[ext] theorem LogDb.ext_rows (hexecutions : db.executionLogs = db'.executionLogs)
    (hmails : db.mailLogs = db'.mailLogs) (hothers : db.others = db'.others) : db = db' := by
  cases db
  cases db'
  cases hexecutions
  cases hmails
  cases hothers
  rfl

theorem LogDb.without_nil : db.without [] = db := by
  refine LogDb.ext_rows ?_ ?_ rfl
  · exact List.filter_eq_self.mpr fun _ _ => by simp
  · exact List.filter_eq_self.mpr fun _ _ => by simp

theorem LogDb.without_append {more : List Nat} :
    (db.without ids).without more = db.without (ids ++ more) := by
  refine LogDb.ext_rows ?_ ?_ rfl
  · simp only [LogDb.without, LogDb.deleteExecutionLogs, LogDb.deleteMailLogs, List.filter_filter]
    congr 1
    funext log
    simp [Bool.and_comm]
  · simp only [LogDb.without, LogDb.deleteExecutionLogs, LogDb.deleteMailLogs, List.filter_filter]
    congr 1
    funext mail
    simp [Bool.and_comm]

/-- A batch raises what one of its statements raises and changes nothing, or it deletes the
first of the expired ids. -/
theorem runBatch_cases :
    (∃ exc n, fault n = some exc ∧ runBatch fault cutoff size db = (.error exc, db)) ∨
      runBatch fault cutoff size db =
        (.ok ((expiredIds cutoff db).take size).length,
          db.without ((expiredIds cutoff db).take size)) := by
  have hstatement : ∀ (n : Nat) (s : LogDb α β γ) (Q : Unit → LogDb α β γ → Prop),
      Q () s → wp (statement fault n) Q (fun exc _ => ∃ n, fault n = some exc) s := by
    intro n s Q hQ
    simp only [statement]
    cases hn : fault n with
    | none => exact hQ
    | some exc => exact ⟨n, hn⟩
  have hwp : wp (cleanupBatch fault cutoff size)
      (fun count work => count = ((expiredIds cutoff db).take size).length ∧
        work = db.without ((expiredIds cutoff db).take size))
      (fun exc _ => ∃ n, fault n = some exc) db := by
    simp only [cleanupBatch, wp_bind]
    refine hstatement 0 db _ ?_
    rw [wp_bind, wp_get]
    by_cases hnone : (expiredIds cutoff db).take size = []
    · rw [if_pos hnone, wp_pure, hnone]
      exact ⟨rfl, LogDb.without_nil.symm⟩
    · rw [if_neg hnone, wp_bind]
      refine hstatement 1 db _ ?_
      rw [wp_bind, wp_modify, wp_bind]
      refine hstatement 2 _ _ ?_
      have hfree : ((db.deleteMailLogs ((expiredIds cutoff db).take size)).mailLogs.any fun mail =>
          mail.executionLogId ∈ (expiredIds cutoff db).take size) = false := by
        simp [LogDb.deleteMailLogs]
      rw [wp_bind, wp_get, hfree, if_neg Bool.false_ne_true, wp_bind, wp_modify, wp_bind]
      exact hstatement 3 _ _ ⟨rfl, rfl⟩
  rw [wp] at hwp
  simp only [runBatch]
  rcases hexec : exec (cleanupBatch fault cutoff size) db with ⟨exc | count, work⟩
  · rw [hexec] at hwp
    obtain ⟨n, hn⟩ := hwp
    exact .inl ⟨exc, n, hn, rfl⟩
  · rw [hexec] at hwp
    obtain ⟨rfl, rfl⟩ := hwp
    exact .inr rfl

/-! ## The expired ids -/

theorem mem_expiredIds {i : Nat} :
    i ∈ expiredIds cutoff db ↔ ∃ log ∈ db.executionLogs, log.id = i ∧ log.Expired cutoff := by
  simp only [expiredIds, List.mem_insertionSort, List.mem_map, List.mem_filter, decide_eq_true_eq]
  constructor
  · rintro ⟨log, ⟨hlog, hexp⟩, hid⟩
    exact ⟨log, hlog, hid, hexp⟩
  · rintro ⟨log, hlog, hid, hexp⟩
    exact ⟨log, ⟨hlog, hexp⟩, hid⟩

theorem expiredIds_pairwise : (expiredIds cutoff db).Pairwise (· ≤ ·) :=
  List.pairwise_insertionSort _ _

theorem expiredIds_nodup : (expiredIds cutoff db).Nodup :=
  (List.perm_insertionSort _ _).nodup_iff.mpr (db.nodup.sublist (List.filter_sublist.map _))

/-- What is expired once some executions are gone. -/
theorem expiredIds_without :
    expiredIds cutoff (db.without ids) = (expiredIds cutoff db).filter fun i => i ∉ ids := by
  have hperm : (expiredIds cutoff (db.without ids)).Perm
      ((expiredIds cutoff db).filter fun i => i ∉ ids) := by
    refine (List.perm_insertionSort _ _).trans
      (List.Perm.trans ?_ ((List.perm_insertionSort _ _).filter _).symm)
    rw [List.filter_map]
    simp only [LogDb.without, LogDb.deleteExecutionLogs, LogDb.deleteMailLogs, List.filter_filter]
    refine List.Perm.of_eq ?_
    congr 2
    funext log
    simp [Bool.and_comm]
  exact hperm.eq_of_pairwise (fun a b _ _ => Nat.le_antisymm) expiredIds_pairwise
    (expiredIds_pairwise.filter _)

theorem filter_not_mem_take {l : List Nat} (hnodup : l.Nodup) (n : Nat) :
    (l.filter fun i => i ∉ l.take n) = l.drop n := by
  have hsplit : l.take n ++ l.drop n = l := List.take_append_drop n l
  have hdisjoint := (List.nodup_append'.mp (hsplit.symm ▸ hnodup)).2.2
  have htake : ((l.take n).filter fun i => i ∉ l.take n) = [] :=
    List.filter_eq_nil_iff.mpr fun i hi => by simpa using hi
  have hdrop : ((l.drop n).filter fun i => i ∉ l.take n) = l.drop n :=
    List.filter_eq_self.mpr fun i hi => by simpa using fun ht => hdisjoint ht hi
  calc (l.filter fun i => i ∉ l.take n)
      = ((l.take n ++ l.drop n).filter fun i => i ∉ l.take n) := by rw [hsplit]
    _ = l.drop n := by rw [List.filter_append, htake, hdrop, List.nil_append]

/-- A batch leaves the rest of the expired ids. -/
theorem expiredIds_without_take (n : Nat) :
    expiredIds cutoff (db.without ((expiredIds cutoff db).take n)) =
      (expiredIds cutoff db).drop n := by
  rw [expiredIds_without, filter_not_mem_take expiredIds_nodup]

/-! ## The loop -/

/-- `(now or utc_now()) - timedelta(days=retention_days)` -/
def retentionCutoff (now : DateTime) (retentionDays : Int) : Except PyExc DateTime := do
  let retention ← DateTime.timedelta (retentionDays * 24 * DateTime.hour)
  DateTime.add now (-retention)

/-- What a run comes to: its result or its exception, and the databases it committed. -/
structure CleanupRun (α β γ : Type) where
  outcome : Except PyExc Nat
  commits : List (LogDb α β γ)

/-- The database when the run is over. -/
def CleanupRun.final (run : CleanupRun α β γ) (db : LogDb α β γ) : LogDb α β γ :=
  run.commits.getLast?.getD db

/-- The `while` loop from its `k`-th batch on; `fault k n` is what the `n`-th statement of that
batch raises. -/
def cleanupBatches (fault : Nat → Nat → Option PyExc) (cutoff : DateTime) (size : Nat)
    (hsize : 0 < size) (k deletedCount : Nat) (db : LogDb α β γ) : CleanupRun α β γ :=
  match hrun : runBatch (fault k) cutoff size db with
  | (.error exc, _) => ⟨.error exc, []⟩
  | (.ok 0, _) => ⟨.ok deletedCount, []⟩
  | (.ok (count + 1), db') =>
      let rest := cleanupBatches fault cutoff size hsize (k + 1) (deletedCount + (count + 1)) db'
      ⟨rest.outcome, db' :: rest.commits⟩
termination_by (expiredIds cutoff db).length
decreasing_by
  obtain ⟨exc, n, -, h⟩ | h := @runBatch_cases α β γ (fault k) cutoff size db
  · cases hrun.symm.trans h
  · obtain ⟨hcount, rfl⟩ := Prod.mk.inj (hrun.symm.trans h)
    have hlength : count + 1 = ((expiredIds cutoff db).take size).length := Except.ok.inj hcount
    rw [expiredIds_without_take, List.length_drop]
    rw [List.length_take] at hlength
    omega

/-- `cleanup_expired_logs` -/
def cleanupExpiredLogs (fault : Nat → Nat → Option PyExc) (retentionDays : Int) (now : DateTime)
    (batchSize : Int) (db : LogDb α β γ) : CleanupRun α β γ :=
  if hsize : batchSize ≤ 0 then
    ⟨.error (valueError "batch_size must be greater than zero"), []⟩
  else
    match retentionCutoff now retentionDays with
    | .error exc => ⟨.error exc, []⟩
    | .ok cutoff =>
        cleanupBatches fault cutoff (min batchSize.toNat defaultCleanupBatchSize)
          (Nat.lt_min.mpr ⟨by omega, by decide⟩) 0 0 db

section

variable {faults : Nat → Nat → Option PyExc} {hsize : 0 < size} {k deletedCount : Nat}

theorem cleanupBatches_raises {exc : PyExc} {work : LogDb α β γ}
    (h : runBatch (faults k) cutoff size db = (.error exc, work)) :
    cleanupBatches faults cutoff size hsize k deletedCount db = ⟨.error exc, []⟩ := by
  rw [cleanupBatches]
  split <;> simp_all

theorem cleanupBatches_done {work : LogDb α β γ}
    (h : runBatch (faults k) cutoff size db = (.ok 0, work)) :
    cleanupBatches faults cutoff size hsize k deletedCount db = ⟨.ok deletedCount, []⟩ := by
  rw [cleanupBatches]
  split <;> simp_all

theorem cleanupBatches_next {count : Nat}
    (h : runBatch (faults k) cutoff size db = (.ok (count + 1), db')) :
    cleanupBatches faults cutoff size hsize k deletedCount db =
      { outcome := (cleanupBatches faults cutoff size hsize (k + 1) (deletedCount + (count + 1))
          db').outcome
        commits := db' :: (cleanupBatches faults cutoff size hsize (k + 1)
          (deletedCount + (count + 1)) db').commits } := by
  rw [cleanupBatches]
  split <;> simp_all

/-- The databases that the first `m` batches commit. -/
def prefixes (cutoff : DateTime) (size m : Nat) (db : LogDb α β γ) : List (LogDb α β γ) :=
  (List.range m).map fun i => db.without ((expiredIds cutoff db).take ((i + 1) * size))

/-- The first batch, and those after it. -/
theorem prefixes_succ (m : Nat) : prefixes cutoff size (m + 1) db =
    db.without ((expiredIds cutoff db).take size) ::
      prefixes cutoff size m (db.without ((expiredIds cutoff db).take size)) := by
  simp only [prefixes, List.range_succ_eq_map, List.map_cons, List.map_map, Nat.zero_add,
    Nat.one_mul]
  congr 1
  refine List.map_congr_left fun i _ => ?_
  simp only [Function.comp_apply]
  rw [expiredIds_without_take, LogDb.without_append, ← List.take_add]
  congr 2
  rw [Nat.succ_mul]
  omega

/-- The loop commits batch after batch until the expired ids are gone or a statement raises. -/
theorem cleanupBatches_spec : ∀ (db : LogDb α β γ) (k deletedCount : Nat), ∃ m,
    (cleanupBatches faults cutoff size hsize k deletedCount db).commits =
      prefixes cutoff size m db ∧
    (((cleanupBatches faults cutoff size hsize k deletedCount db).outcome =
        .ok (deletedCount + (expiredIds cutoff db).length) ∧
        (expiredIds cutoff db).length ≤ m * size) ∨
      ∃ exc n, faults (k + m) n = some exc ∧
        (cleanupBatches faults cutoff size hsize k deletedCount db).outcome = .error exc) := by
  intro db
  induction hlen : (expiredIds cutoff db).length using Nat.strongRecOn generalizing db with
  | ind length ih =>
    intro k deletedCount
    obtain ⟨exc, n, hfault, hrun⟩ | hrun := @runBatch_cases α β γ (faults k) cutoff size db
    · rw [cleanupBatches_raises hrun]
      exact ⟨0, rfl, .inr ⟨exc, n, hfault, rfl⟩⟩
    · cases hcount : ((expiredIds cutoff db).take size).length with
      | zero =>
          rw [hcount] at hrun
          rw [cleanupBatches_done hrun]
          rw [List.length_take] at hcount
          have hnone : length = 0 := by omega
          subst hnone
          exact ⟨0, rfl, .inl ⟨rfl, Nat.zero_le _⟩⟩
      | succ count =>
          rw [hcount] at hrun
          rw [List.length_take] at hcount
          have hrest : (expiredIds cutoff (db.without ((expiredIds cutoff db).take size))).length =
              length - size := by
            rw [expiredIds_without_take, List.length_drop, hlen]
          obtain ⟨m, hcommits, houtcome⟩ := ih (length - size) (by omega)
            (db.without ((expiredIds cutoff db).take size)) hrest (k + 1)
            (deletedCount + (count + 1))
          rw [cleanupBatches_next hrun]
          refine ⟨m + 1, by rw [prefixes_succ, hcommits], ?_⟩
          obtain ⟨hok, hle⟩ | ⟨exc, n, hfault, herr⟩ := houtcome
          · refine .inl ⟨hok.trans ?_, ?_⟩
            · congr 1
              omega
            · rw [Nat.succ_mul]
              omega
          · exact .inr ⟨exc, n, by rw [← hfault]; congr 1; omega, herr⟩

end

/-! ## What is left -/

/-- The database without the expired executions and their mail logs. -/
def LogDb.retained (cutoff : DateTime) (db : LogDb α β γ) : LogDb α β γ :=
  { db with
    executionLogs := db.executionLogs.filter fun log => ¬ log.Expired cutoff
    mailLogs := db.mailLogs.filter fun mail =>
      ¬ db.executionLogs.any fun log => log.id = mail.executionLogId ∧ log.Expired cutoff
    nodup := db.nodup.sublist (List.filter_sublist.map _) }

theorem without_expiredIds : db.without (expiredIds cutoff db) = db.retained cutoff := by
  refine LogDb.ext_rows (List.filter_congr fun log hlog => ?_)
    (List.filter_congr fun mail _ => ?_) rfl
  · rw [decide_eq_decide, mem_expiredIds, not_iff_not]
    constructor
    · rintro ⟨other, hother, hid, hexp⟩
      rwa [← List.inj_on_of_nodup_map db.nodup hother hlog hid]
    · intro hexp
      exact ⟨log, hlog, rfl, hexp⟩
  · rw [decide_eq_decide, mem_expiredIds, not_iff_not, List.any_eq_true]
    simp only [decide_eq_true_eq]

/-- Deleting executions with their mail logs keeps the references. -/
theorem LogDb.Linked.without (h : db.Linked) : (db.without ids).Linked := by
  intro mail hmail
  obtain ⟨hmail, hkept⟩ := List.mem_filter.mp hmail
  obtain ⟨log, hlog, hid⟩ := List.mem_map.mp (h mail hmail)
  refine List.mem_map.mpr ⟨log, List.mem_filter.mpr ⟨hlog, ?_⟩, hid⟩
  rw [hid]
  exact hkept

theorem final_prefixes {run : CleanupRun α β γ} {m : Nat}
    (hcommits : run.commits = prefixes cutoff size m db) :
    run.final db = db.without ((expiredIds cutoff db).take (m * size)) := by
  rw [CleanupRun.final, hcommits, prefixes]
  cases m with
  | zero => rw [Nat.zero_mul, List.take_zero, LogDb.without_nil]; rfl
  | succ m => rw [List.range_succ, List.map_append, List.map_singleton, List.getLast?_concat]; rfl

/-- What some of the batches have left is as good to clean up as what there was. -/
theorem retained_without_take (n : Nat) :
    (db.without ((expiredIds cutoff db).take n)).retained cutoff = db.retained cutoff := by
  rw [← without_expiredIds, expiredIds_without_take, LogDb.without_append,
    List.take_append_drop, without_expiredIds]

/-- A run that has committed `m` batches. -/
structure CleanupRun.Exact (faults : Nat → Nat → Option PyExc) (cutoff : DateTime) (size : Nat)
    (db : LogDb α β γ) (run : CleanupRun α β γ) (m : Nat) : Prop where
  /-- each commit deletes the next ids in ascending order, with their mail logs -/
  commits : run.commits = prefixes cutoff size m db
  final : run.final db = db.without ((expiredIds cutoff db).take (m * size))
  linked : ∀ committed ∈ run.commits, committed.Linked
  /-- it deletes all that is expired and says how many executions that were, or a statement of
  the next batch raises -/
  outcome : (run.outcome = .ok (expiredIds cutoff db).length ∧
      run.final db = db.retained cutoff) ∨
    ∃ exc n, faults m n = some exc ∧ run.outcome = .error exc

theorem cleanupBatches_exact {faults : Nat → Nat → Option PyExc} {hsize : 0 < size}
    (hlinked : db.Linked) :
    ∃ m, (cleanupBatches faults cutoff size hsize 0 0 db).Exact faults cutoff size db m := by
  obtain ⟨m, hcommits, houtcome⟩ := @cleanupBatches_spec α β γ cutoff size faults hsize db 0 0
  have hfinal := final_prefixes hcommits
  refine ⟨m, hcommits, hfinal, fun committed hmem => ?_, ?_⟩
  · rw [hcommits] at hmem
    obtain ⟨i, -, rfl⟩ := List.mem_map.mp hmem
    exact hlinked.without
  · obtain ⟨hok, hle⟩ | ⟨exc, n, hfault, herr⟩ := houtcome
    · rw [Nat.zero_add] at hok
      rw [List.take_of_length_le hle, without_expiredIds] at hfinal
      exact .inl ⟨hok, hfinal⟩
    · rw [Nat.zero_add] at hfault
      exact .inr ⟨exc, n, hfault, herr⟩

/-- A run with this cutoff is the loop. -/
theorem cleanupExpiredLogs_eq {faults : Nat → Nat → Option PyExc} {retentionDays : Int}
    {now : DateTime} {batchSize : Int} (hbatch : 0 < batchSize)
    (hcutoff : retentionCutoff now retentionDays = .ok cutoff) :
    ∃ hsize, cleanupExpiredLogs faults retentionDays now batchSize db =
      cleanupBatches faults cutoff (min batchSize.toNat defaultCleanupBatchSize) hsize 0 0 db := by
  rw [cleanupExpiredLogs, dif_neg (Int.not_le.mpr hbatch), hcutoff]
  exact ⟨_, rfl⟩

theorem cleanupExpiredLogs_exact {faults : Nat → Nat → Option PyExc} {retentionDays : Int}
    {now : DateTime} {batchSize : Int} (hbatch : 0 < batchSize)
    (hcutoff : retentionCutoff now retentionDays = .ok cutoff) (hlinked : db.Linked) :
    ∃ m, (cleanupExpiredLogs faults retentionDays now batchSize db).Exact faults cutoff
      (min batchSize.toNat defaultCleanupBatchSize) db m := by
  obtain ⟨hsize, heq⟩ := @cleanupExpiredLogs_eq α β γ cutoff db faults _ _ _ hbatch hcutoff
  rw [heq]
  exact cleanupBatches_exact hlinked

/-- Every run with this cutoff that returns leaves `target` of `db`. -/
def CleansUpTo (cutoff : DateTime) (db target : LogDb α β γ) : Prop :=
  ∀ (faults : Nat → Nat → Option PyExc) (retentionDays : Int) (now : DateTime) (batchSize : Int)
    (count : Nat), 0 < batchSize → retentionCutoff now retentionDays = .ok cutoff →
    (cleanupExpiredLogs faults retentionDays now batchSize db).outcome = .ok count →
    (cleanupExpiredLogs faults retentionDays now batchSize db).final db = target

theorem cleansUpTo_retained (hlinked : db.Linked) : CleansUpTo cutoff db (db.retained cutoff) := by
  intro faults retentionDays now batchSize count hbatch hcutoff hcount
  obtain ⟨m, hexact⟩ := @cleanupExpiredLogs_exact α β γ cutoff db faults _ _ _ hbatch hcutoff hlinked
  obtain ⟨-, hfinal⟩ | ⟨exc, n, -, herr⟩ := hexact.outcome
  · exact hfinal
  · cases hcount.symm.trans herr

/-- **The cleanup.**  Whatever its statements raise, a run has deleted a number of batches of
the expired executions with their mail logs and nothing else, all of them when it returns.  It
returns when nothing is raised; and after whatever was raised, a later run with the same cutoff
that returns leaves the database that an undisturbed run would have left. -/
theorem log_retention (faults : Nat → Nat → Option PyExc) (retentionDays : Int) (now : DateTime)
    (batchSize : Int) (db : LogDb α β γ) (hbatch : 0 < batchSize)
    (hcutoff : retentionCutoff now retentionDays = .ok cutoff) (hlinked : db.Linked) :
    let run := cleanupExpiredLogs faults retentionDays now batchSize db
    (∃ m, run.Exact faults cutoff (min batchSize.toNat defaultCleanupBatchSize) db m) ∧
      ((∀ k n, faults k n = none) → run.outcome = .ok (expiredIds cutoff db).length) ∧
      CleansUpTo cutoff (run.final db) (db.retained cutoff) := by
  intro run
  obtain ⟨m, hexact⟩ := @cleanupExpiredLogs_exact α β γ cutoff db faults _ _ _ hbatch hcutoff hlinked
  refine ⟨⟨m, hexact⟩, fun hfree => ?_, ?_⟩
  · obtain ⟨hok, -⟩ | ⟨exc, n, hfault, -⟩ := hexact.outcome
    · exact hok
    · rw [hfree] at hfault
      cases hfault
  · have hleft : (run.final db).Linked := by
      rw [hexact.final]
      exact hlinked.without
    have hsame : (run.final db).retained cutoff = db.retained cutoff := by
      rw [hexact.final]
      exact retained_without_take _
    exact hsame ▸ cleansUpTo_retained hleft

end

/-! ## Three expired executions -/

def expiredLog (i : Nat) : ExecutionRow Unit :=
  { id := i, status := .success, finishedAt := some 10, columns := () }

/-- Executions 1 to 3 are expired, 4 is still running and 5 has just finished. -/
def sampleLogs : LogDb Unit Unit Unit where
  executionLogs := [expiredLog 3, expiredLog 1, expiredLog 2,
    { id := 4, status := .running, finishedAt := none, columns := () },
    { id := 5, status := .failed, finishedAt := some (90 * 24 * DateTime.hour), columns := () }]
  mailLogs := [⟨1, ()⟩, ⟨3, ()⟩, ⟨5, ()⟩, ⟨1, ()⟩]
  others := ()
  nodup := by decide

/-- The commit of the second batch raises. -/
def secondBatchFails (k n : Nat) : Option PyExc :=
  if k = 1 ∧ n = 3 then some (valueError "second batch failed") else none

theorem log_retention_sampleLogs :
    let run := cleanupExpiredLogs secondBatchFails 30 (100 * 24 * DateTime.hour) 2 sampleLogs
    (∃ m, run.Exact secondBatchFails (70 * 24 * DateTime.hour) 2 sampleLogs m) ∧
      ((∀ k n, secondBatchFails k n = none) →
        run.outcome = .ok (expiredIds (70 * 24 * DateTime.hour) sampleLogs).length) ∧
      CleansUpTo (70 * 24 * DateTime.hour) (run.final sampleLogs)
        (sampleLogs.retained (70 * 24 * DateTime.hour)) :=
  log_retention secondBatchFails 30 (100 * 24 * DateTime.hour) 2 sampleLogs (by decide)
    (by decide) (by simp only [LogDb.Linked]; decide)

end EarlyWarning.LogRetention
