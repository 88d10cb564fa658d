/-
# `LogLifecycle` — the logs while rules run and the worker cleans up

The executions and the calls of `archive_rule` as in `Archiving`, and beside them the worker with
`cleanup_expired_logs` of `app/log_service.py`.  A batch of the cleanup reads which executions have
expired; later on it deletes them with their mail logs, in one transaction.  Rules run in between,
and a batch that raises ends the cleanup, until the worker calls it again.

The ids of the batch are still those of the same executions when it deletes them.  SQLite may
give the id of a deleted row away again, but not that of a row that is there, and nothing but this
cleanup deletes logs (`Inv.selected`).  So the two tables fit together in every state
(`log_lifecycle`): each log stands there with all of its mail logs or is gone with all of them,
and one that is gone had expired.
-/
import EarlyWarning.Archiving
import EarlyWarning.LogConsistency
import EarlyWarning.LogRetention

namespace EarlyWarning.LogLifecycle

open Lib Archiving

/-! ## The two tables -/

/-- The mail logs of an execution log. -/
def mailsOf (db : Db) (log : ExecutionLog) : List MailLog :=
  db.mailLogs.filter fun mail => mail.executionLogId = log.id

/-- What the cleanup reads of an execution log. -/
def executionRow (log : ExecutionLog) : LogRetention.ExecutionRow ExecutionLog where
  id := log.id
  status := log.status
  finishedAt := some log.finishedAt
  columns := log

def mailRow (mail : MailLog) : LogRetention.MailRow MailLog where
  executionLogId := mail.executionLogId
  columns := mail

/-- The SELECT of a batch, before the limit. -/
def expiredIds (cutoff : DateTime) (db : Db) : List Nat :=
  (((db.executionLogs.map executionRow).filter fun log => log.Expired cutoff).map
    LogRetention.ExecutionRow.id).insertionSort (· ≤ ·)

/-- The two DELETE statements of a batch. -/
def deleteLogs (ids : List Nat) (db : Db) : Db :=
  { db with
    mailLogs := db.mailLogs.filter fun mail => mail.executionLogId ∉ ids
    executionLogs := db.executionLogs.filter fun log => log.id ∉ ids }

/-- The tables as the cleanup alone has them. -/
def logDb (db : Db) (h : (db.executionLogs.map ExecutionLog.id).Nodup) :
    LogRetention.LogDb ExecutionLog MailLog Unit where
  executionLogs := db.executionLogs.map executionRow
  mailLogs := db.mailLogs.map mailRow
  others := ()
  nodup := by
    rw [List.map_map]
    exact h

section

variable {db : Db} {ids : List Nat} {cutoff : DateTime}

theorem deleteLogs_nodup (h : (db.executionLogs.map ExecutionLog.id).Nodup) :
    ((deleteLogs ids db).executionLogs.map ExecutionLog.id).Nodup :=
  h.sublist (List.filter_sublist.map _)

theorem expiredIds_logDb (h : (db.executionLogs.map ExecutionLog.id).Nodup) :
    LogRetention.expiredIds cutoff (logDb db h) = expiredIds cutoff db := rfl

/-- The statements are those of the cleanup. -/
theorem logDb_deleteLogs (h : (db.executionLogs.map ExecutionLog.id).Nodup) :
    logDb (deleteLogs ids db) (deleteLogs_nodup h) = (logDb db h).without ids := by
  refine LogRetention.LogDb.ext_rows ?_ ?_ rfl
  · show (db.executionLogs.filter _).map executionRow = (db.executionLogs.map executionRow).filter _
    rw [List.filter_map]
    rfl
  · show (db.mailLogs.filter _).map mailRow = (db.mailLogs.map mailRow).filter _
    rw [List.filter_map]
    rfl

theorem mem_expiredIds {id : Nat} : id ∈ expiredIds cutoff db ↔
    ∃ log ∈ db.executionLogs, (executionRow log).Expired cutoff ∧ log.id = id := by
  rw [expiredIds, List.mem_insertionSort, List.mem_map]
  constructor
  · rintro ⟨row, hrow, rfl⟩
    obtain ⟨hmem, hexpired⟩ := List.mem_filter.mp hrow
    obtain ⟨log, hlog, rfl⟩ := List.mem_map.mp hmem
    exact ⟨log, hlog, of_decide_eq_true hexpired, rfl⟩
  · rintro ⟨log, hlog, hexpired, rfl⟩
    exact ⟨executionRow log, List.mem_filter.mpr ⟨List.mem_map_of_mem hlog,
      decide_eq_true hexpired⟩, rfl⟩

end

/-! ## The system -/

inductive CleanupPhase
  | idle
  /-- before the SELECT of a batch -/
  | running (cutoff : DateTime)
  /-- between the SELECT of a batch and its DELETE statements -/
  | selected (cutoff : DateTime) (ids : List Nat)
deriving DecidableEq

structure State (ι κ : Type) where
  system : Archiving.State ι κ
  cleanup : CleanupPhase

inductive Label (ι κ : Type)
  /-- of an execution, or of a call of `archive_rule` -/
  | system (label : Archiving.Label ι κ)
  | start (now : DateTime)
  | select (fault : Option PyExc)
  /-- the transaction commits, or one of its statements raises -/
  | delete (fault : Option PyExc)

variable {ι κ : Type} [DecidableEq ι] [DecidableEq κ]
  (libs : Libraries) (ex : ι → Execution) (ar : κ → ArchiveRequest)
  (retentionDays : Int) (size : Nat)

/-- The transaction of a batch, with `PRAGMA foreign_keys=ON`. -/
def commitBatch (fault : Option PyExc) (ids : List Nat) (db : Db) : Except PyExc Db :=
  match fault with
  | some exc => .error exc
  | none =>
      if (deleteLogs ids db).mailLogs.any fun mail => mail.executionLogId ∈ ids then
        .error LogRetention.foreignKeyError
      else .ok (deleteLogs ids db)

def step (s : State ι κ) : Label ι κ → Option (State ι κ)
  | .system label => (Archiving.step libs ex ar s.system label).map fun system => { s with system }
  | .start now =>
      match s.cleanup with
      | .idle =>
          match LogRetention.retentionCutoff now retentionDays with
          | .error _ => some s
          | .ok cutoff => some { s with cleanup := .running cutoff }
      | _ => none
  | .select fault =>
      match s.cleanup, fault with
      | .running _, some _ => some { s with cleanup := .idle }
      | .running cutoff, none =>
          let ids := (expiredIds cutoff s.system.db).take size
          some { s with cleanup := if ids = [] then .idle else .selected cutoff ids }
      | _, _ => none
  | .delete fault =>
      match s.cleanup with
      | .selected cutoff ids =>
          match commitBatch fault ids s.system.db with
          | .error _ => some { s with cleanup := .idle }
          | .ok db => some { system := { s.system with db }, cleanup := .running cutoff }
      | _ => none

/-- Nobody has started, and the tables are in order. -/
structure Initial (s : State ι κ) : Prop where
  system : Archiving.Initial s.system
  cleanup : s.cleanup = .idle
  nodup : (s.system.db.executionLogs.map ExecutionLog.id).Nodup
  linked : ∀ mail ∈ s.system.db.mailLogs,
    mail.executionLogId ∈ s.system.db.executionLogs.map ExecutionLog.id

/-- No mail log is left in the way of the second DELETE. -/
theorem commitBatch_none (ids : List Nat) (db : Db) :
    commitBatch none ids db = .ok (deleteLogs ids db) := by
  have hnone :
      ((deleteLogs ids db).mailLogs.any fun mail => mail.executionLogId ∈ ids) = false := by
    rw [List.any_eq_false]
    intro mail hmail
    simpa using (List.mem_filter.mp hmail).2
  simp only [commitBatch, hnone, Bool.false_eq_true, if_false]

/-- A batch that nothing comes between is the one of `cleanup_expired_logs`. -/
theorem batch_runBatch {s t : State ι κ} {cutoff : DateTime}
    (hnodup : (s.system.db.executionLogs.map ExecutionLog.id).Nodup)
    (hcleanup : s.cleanup = .running cutoff)
    (h : fire (step libs ex ar retentionDays size) s [.select none, .delete none] = some t) :
    ∃ hnodup', LogRetention.runBatch (fun _ => none) cutoff size (logDb s.system.db hnodup) =
      (.ok ((expiredIds cutoff s.system.db).take size).length, logDb t.system.db hnodup') := by
  obtain ⟨u, hselect, hrest⟩ := fire_cons.mp h
  obtain ⟨v, hdelete, hnil⟩ := fire_cons.mp hrest
  cases fire_nil.mp hnil
  simp only [step, hcleanup, Option.some.injEq] at hselect
  subst hselect
  simp only [step] at hdelete
  split at hdelete
  case h_1 cutoff' ids hids =>
    split at hids
    case isTrue => cases hids
    case isFalse hne =>
      cases hids
      rw [commitBatch_none, Option.some.injEq] at hdelete
      subst hdelete
      refine ⟨deleteLogs_nodup hnodup, ?_⟩
      rw [logDb_deleteLogs hnodup, ← expiredIds_logDb hnodup]
      obtain ⟨exc, n, hraised, -⟩ | hrun := @LogRetention.runBatch_cases _ _ _ (fun _ => none)
        cutoff size (logDb s.system.db hnodup)
      · cases hraised
      · exact hrun
  case h_2 => cases hdelete

/-! ## What an execution has stored

What is known of the session of an execution, beside `SessionOk`. -/

/-- The execution log is the account of this session, with these mail logs. -/
def Accounts (w : World) (log : ExecutionLog) (mails : List MailLog) : Prop :=
  ∃ last, w.attempts.head? = some last ∧ LogsTell last log mails

def Told (logs : List ExecutionLog) (w : World) : Phase → Prop
  | .start | .loaded | .refused | .leased => logs = []
  | .attempted attempt _ =>
      logs = [] ∧ ∃ last, w.attempts.head? = some last ∧ Outcome last attempt.result
  | .ended | .released => logs = [] ∨ ∃ log mails, logs = [log] ∧ Accounts w log mails

/-- What a step of the execution `i` does to the logs when it leaves its session in the state
`w`. -/
inductive Tells (s : Archiving.State ι κ) (i : ι) (phase : Phase) (w : World) : Prop
  | quiet (hexecutions : w.store.db.executionLogs = s.db.executionLogs)
      (hmails : w.store.db.mailLogs = s.db.mailLogs) (htold : Told (s.logs i) w phase)
      (hattempts : s.logs i = [] ∨ w.attempts = (s.world i).attempts) : Tells s i phase w
  | stores (log : ExecutionLog) (mails : List MailLog) (hnone : s.logs i = [])
      (hphase : phase = .ended)
      (hfresh : log.id ∉ s.db.executionLogs.map ExecutionLog.id)
      (hexecutions : w.store.db.executionLogs = s.db.executionLogs ++ [log])
      (hmails : w.store.db.mailLogs = s.db.mailLogs ++ mails)
      (hids : ∀ mail ∈ mails, mail.executionLogId = log.id)
      (haccounts : Accounts w log mails) : Tells s i phase w

section

variable {libs ex ar} {s : Archiving.State ι κ} {i : ι}

omit [DecidableEq ι] [DecidableEq κ] in
theorem exec_tells {α : Type} {part : Svc α} {next : α → Phase} {otherwise : Phase}
    (h : wp part (fun a w => Tells s i (next a) w) (fun _ w => Tells s i otherwise w)
      ((s.world i).seeing s.db)) :
    Tells s i (phaseAfter next otherwise (s.exec i part).1) (s.exec i part).2 :=
  wp_exec (R := fun out w => Tells s i (phaseAfter next otherwise out) w).mp h

omit [DecidableEq ι] [DecidableEq κ] in
/-- A step that leaves the logs alone, of an execution that has stored none. -/
theorem Tells.before {phase : Phase} {w : World} (leases : LeaseTable)
    (hdb : w.store.db = s.db.withLeases leases) (hnone : s.logs i = [])
    (htold : Told [] w phase) : Tells s i phase w := by
  refine .quiet (by rw [hdb]; rfl) (by rw [hdb]; rfl) ?_ (.inl hnone)
  rw [hnone]
  exact htold

omit [DecidableEq ι] [DecidableEq κ] in
theorem load_tells (hok : SessionOk s.db (ex i).request.ruleId (s.logs i) (s.world i) .start) :
    Tells s i (phaseAfter (fun _ => .loaded) .refused (s.exec i (loadPart (ex i))).1)
      (s.exec i (loadPart (ex i))).2 := by
  obtain ⟨hpending, hrule, -, hlogs⟩ := hok
  refine exec_tells (loadActiveRule_wp hpending (.inl hrule) (fun n rule _ _ => ?_)
    fun e w hw => ?_)
  · exact .before s.db.leases rfl hlogs rfl
  · exact .before s.db.leases hw.db hlogs rfl

omit [DecidableEq ι] [DecidableEq κ] in
theorem acquire_tells (hok : SessionOk s.db (ex i).request.ruleId (s.logs i) (s.world i) .loaded) :
    Tells s i (phaseAfter (fun _ => .leased) .refused (s.exec i (acquirePart (ex i))).1)
      (s.exec i (acquirePart (ex i))).2 := by
  obtain ⟨hpending, -, hlogs, -⟩ := hok
  refine exec_tells (enterLease_wp hpending rfl (fun w leases _ hw _ _ => ?_)
    fun e w leases hw => ?_)
  · have hdb : w.store.db = s.db.withLeases leases := by
      rw [hw.store]
      rfl
    exact .before leases hdb hlogs rfl
  · exact .before leases hw.db hlogs rfl

omit [DecidableEq ι] [DecidableEq κ] in
theorem attempts_tells (hlogs : s.logs i = [])
    (hok : SessionOk s.db (ex i).request.ruleId (s.logs i) (s.world i) .leased) :
    Tells s i
      (phaseAfter (fun r => .attempted r.1 r.2) .ended (s.exec i (attemptsPart libs (ex i))).1)
      (s.exec i (attemptsPart libs (ex i))).2 := by
  obtain ⟨hpending, hnone, rule, hfound⟩ := hok
  have hready : ((s.world i).seeing s.db).Ready (ex i).request.ruleId rule :=
    ⟨hpending, hfound, .inl hnone⟩
  refine exec_tells (attemptLoop_wp hready (totalAttempts_pos _)
    (fun w last earlier attempt hw hlast _ _ _ _ => ?_) fun e w attempts hw _ _ _ _ => ?_)
  · refine .before s.db.leases (by rw [hw.store]; rfl) hlogs ⟨rfl, last, ?_, ?_⟩
    · rw [hw.attempts_eq]
      rfl
    · exact hlast.outcome
  · exact .before s.db.leases (by rw [hw.store]; rfl) hlogs (.inl rfl)

/-- The new log has an id of its own. -/
theorem storeResult_logs {last : AttemptRecord} {attempt : ExecutionAttempt} {n : Nat}
    (h : Outcome last attempt.result) (db : Db) (env : RunEnv) (ruleId : Nat)
    (triggerType : TriggerType) :
    ∃ log mails, log.id ∉ db.executionLogs.map ExecutionLog.id ∧
      (db.storeResult env ruleId triggerType (reported attempt n)).executionLogs =
        db.executionLogs ++ [log] ∧
      (db.storeResult env ruleId triggerType (reported attempt n)).mailLogs =
        db.mailLogs ++ mails ∧
      LogsTell last log mails := by
  have hstores : StoresLogs db (db.storeResult env ruleId triggerType (reported attempt n)) last :=
    h.storesLogs db env attempt.suppressionState
  obtain ⟨log, mails, hexecutions, hmails, htell⟩ := hstores
  have hlog : [log] = [db.storedLog env ruleId triggerType (reported attempt n).result] :=
    List.append_cancel_left (hexecutions.symm.trans (Db.storeResult_executionLogs ..))
  refine ⟨log, mails, ?_, hexecutions, hmails, htell⟩
  rw [List.head_eq_of_cons_eq hlog]
  exact nextId_not_mem _

omit [DecidableEq ι] [DecidableEq κ] in
theorem persist_tells {attempt : ExecutionAttempt} {attemptsUsed : Nat}
    (htold : Told (s.logs i) (s.world i) (.attempted attempt attemptsUsed))
    (hok : SessionOk s.db (ex i).request.ruleId (s.logs i) (s.world i)
      (.attempted attempt attemptsUsed)) :
    Tells s i .ended (s.exec i (persistPart (ex i) attempt attemptsUsed)).2 := by
  obtain ⟨hlogs, last, hlast, houtcome⟩ := htold
  have hknows : ((s.world i).seeing s.db).Knows (ex i).request.ruleId := ⟨hok.pending, hok.loaded⟩
  have hstores : ∀ w : World, ((s.world i).seeing s.db).Commits w
      (s.db.storeResult (ex i).env (ex i).request.ruleId (ex i).request.triggerType
        (reported attempt attemptsUsed)) → Tells s i .ended w := by
    intro w hw
    obtain ⟨log, mails, hfresh, hexecutions, hmails, htell⟩ :=
      storeResult_logs (n := attemptsUsed) houtcome s.db (ex i).env (ex i).request.ruleId
        (ex i).request.triggerType
    exact .stores log mails hlogs rfl hfresh (by rw [hw.db, hexecutions])
      (by rw [hw.db, hmails]) htell.log_id ⟨last, by rw [hw.attempts]; exact hlast, htell⟩
  refine wp_exec (R := fun _ w => Tells s i .ended w).mp (persistExecutionResult_wp hknows
    (fun w hw => hstores w hw) (fun e w hw => ?_) fun e w hw => hstores w hw)
  exact .before s.db.leases hw.db hlogs (.inl rfl)

omit [DecidableEq ι] [DecidableEq κ] in
theorem release_tells (htold : Told (s.logs i) (s.world i) .ended) :
    Tells s i .released (s.exec i (releasePart (ex i))).2 := by
  have hquiet : ∀ (w : World) leases, ((s.world i).seeing s.db).Commits w
      (s.db.withLeases leases) → Tells s i .released w := by
    intro w leases hw
    refine .quiet (by rw [hw.db]; rfl) (by rw [hw.db]; rfl) ?_ (.inr hw.attempts)
    obtain hnone | ⟨log, mails, hlog, last, hlast, htell⟩ := htold
    · exact .inl hnone
    · exact .inr ⟨log, mails, hlog, last, by rw [hw.attempts]; exact hlast, htell⟩
  exact wp_exec (R := fun _ w => Tells s i .released w).mp (releaseRuleExecutionLease_wp
    (fun w hw => hquiet w _ hw) fun e w leases hw => hquiet w leases hw)

/-- **What a step does to the logs.** -/
theorem system_tells {t : Archiving.State ι κ} {label : Archiving.Label ι κ}
    (hinv : SystemInv ex ar s) (htold : ∀ i, Told (s.logs i) (s.world i) (s.phase i))
    (h : Archiving.step libs ex ar s label = some t) :
    (∃ i phase w, t = s.moved i phase w ∧ Tells s i phase w) ∨
    (t.db.executionLogs = s.db.executionLogs ∧ t.db.mailLogs = s.db.mailLogs ∧
      t.logs = s.logs ∧ t.world = s.world ∧ t.phase = s.phase) := by
  cases label with
  | load i =>
      simp only [Archiving.step] at h
      split at h
      case h_1 hs =>
        cases h
        exact .inl ⟨i, _, _, rfl, load_tells (hs ▸ hinv.sessions i)⟩
      case h_2 => cases h
  | acquire i =>
      simp only [Archiving.step] at h
      split at h
      case h_1 hs =>
        cases h
        exact .inl ⟨i, _, _, rfl, acquire_tells (hs ▸ hinv.sessions i)⟩
      case h_2 => cases h
  | attempts i =>
      simp only [Archiving.step] at h
      split at h
      case h_1 hs =>
        cases h
        have hlogs : s.logs i = [] := by
          have := htold i
          rwa [hs] at this
        exact .inl ⟨i, _, _, rfl, attempts_tells hlogs (hs ▸ hinv.sessions i)⟩
      case h_2 => cases h
  | persist i =>
      simp only [Archiving.step] at h
      split at h
      case h_1 hs =>
        cases h
        exact .inl ⟨i, _, _, rfl, persist_tells (hs ▸ htold i) (hs ▸ hinv.sessions i)⟩
      case h_2 => cases h
  | release i =>
      simp only [Archiving.step] at h
      split at h
      case h_1 hs =>
        cases h
        exact .inl ⟨i, _, _, rfl, release_tells (hs ▸ htold i)⟩
      case h_2 => cases h
  | archiveLoad k =>
      simp only [Archiving.step] at h
      split at h
      case h_1 =>
        split at h <;>
        · cases h
          exact .inr ⟨rfl, rfl, rfl, rfl, rfl⟩
      case h_2 => cases h
  | archiveCommit k =>
      simp only [Archiving.step] at h
      split at h
      case h_1 =>
        cases h
        exact .inr ⟨rfl, rfl, rfl, rfl, rfl⟩
      case h_2 => cases h

end

/-! ## What every step keeps -/

/-- The log was there at first with these mail logs, or it is the account of an execution. -/
def Comes (db₀ : Db) (s : Archiving.State ι κ) (log : ExecutionLog) (mails : List MailLog) : Prop :=
  (log ∈ db₀.executionLogs ∧ mails = mailsOf db₀ log) ∨
    ∃ i, s.logs i = [log] ∧ Accounts (s.world i) log mails

structure Inv (ex : ι → Execution) (ar : κ → ArchiveRequest) (db₀ : Db) (s : State ι κ) : Prop where
  system : SystemInv ex ar s.system
  told : ∀ i, Told (s.system.logs i) (s.system.world i) (s.system.phase i)
  nodup : (s.system.db.executionLogs.map ExecutionLog.id).Nodup
  linked : ∀ mail ∈ s.system.db.mailLogs,
    mail.executionLogId ∈ s.system.db.executionLogs.map ExecutionLog.id
  comes : ∀ log ∈ s.system.db.executionLogs, Comes db₀ s.system log (mailsOf s.system.db log)
  /-- what a batch is about to delete has expired and is still there -/
  selected : ∀ cutoff ids, s.cleanup = .selected cutoff ids →
    ∀ id ∈ ids, id ∈ expiredIds cutoff s.system.db

/-- The cleanup has been started with this cutoff. -/
def Demanded (retentionDays : Int) (past : List (Label ι κ)) (cutoff : DateTime) : Prop :=
  ∃ now, .start now ∈ past ∧ LogRetention.retentionCutoff now retentionDays = .ok cutoff

/-- What is gone had expired. -/
structure Kept (retentionDays : Int) (db₀ : Db) (past : List (Label ι κ)) (s : State ι κ) :
    Prop where
  running : ∀ cutoff, s.cleanup = .running cutoff → Demanded retentionDays past cutoff
  selected : ∀ cutoff ids, s.cleanup = .selected cutoff ids → Demanded retentionDays past cutoff
  kept : ∀ log, (log ∈ db₀.executionLogs ∨ ∃ i, log ∈ s.system.logs i) →
    log ∈ s.system.db.executionLogs ∨
      ∃ cutoff, Demanded retentionDays past cutoff ∧ (executionRow log).Expired cutoff

section

variable {libs ex ar} {db₀ : Db} {s t : Archiving.State ι κ} {i : ι} {phase : Phase} {w : World}
  {log : ExecutionLog} {mails : List MailLog}

omit [DecidableEq ι] [DecidableEq κ] in
/-- A log keeps its origin while the executions that have stored one leave it as it is. -/
theorem Comes.mono (h : Comes db₀ s log mails)
    (hkeep : ∀ i, s.logs i ≠ [] →
      t.logs i = s.logs i ∧ (t.world i).attempts = (s.world i).attempts) :
    Comes db₀ t log mails := by
  obtain hfirst | ⟨i, hlog, last, hlast, htell⟩ := h
  · exact .inl hfirst
  · obtain ⟨hlogs, hattempts⟩ := hkeep i (by rw [hlog]; exact List.cons_ne_nil _ _)
    exact .inr ⟨i, hlogs.trans hlog, last, by rw [hattempts]; exact hlast, htell⟩

omit [DecidableEq κ] in
theorem moved_logs_self : (s.moved i phase w).logs i =
    s.logs i ++ w.store.db.executionLogs.drop s.db.executionLogs.length := Function.update_self ..

omit [DecidableEq κ] in
theorem Tells.told (h : Tells s i phase w)
    (htold : ∀ j, Told (s.logs j) (s.world j) (s.phase j)) (j : ι) :
    Told ((s.moved i phase w).logs j) ((s.moved i phase w).world j)
      ((s.moved i phase w).phase j) := by
  rcases eq_or_ne j i with rfl | hne
  · have hworld : (s.moved j phase w).world j = w := Function.update_self ..
    have hphase' : (s.moved j phase w).phase j = phase := Function.update_self ..
    rw [moved_logs_self, hworld, hphase']
    cases h with
    | quiet hexecutions _ htold' =>
        rw [drop_same hexecutions, List.append_nil]
        exact htold'
    | stores log mails hnone hphase _ hexecutions _ _ haccounts =>
        rw [hnone, hexecutions, List.drop_left, hphase]
        exact .inr ⟨log, mails, rfl, haccounts⟩
  · simpa [State.moved, hne] using htold j

omit [DecidableEq κ] in
theorem Tells.keep (h : Tells s i phase w) (j : ι) (hstored : s.logs j ≠ []) :
    (s.moved i phase w).logs j = s.logs j ∧
      ((s.moved i phase w).world j).attempts = (s.world j).attempts := by
  rcases eq_or_ne j i with rfl | hne
  · have hworld : (s.moved j phase w).world j = w := Function.update_self ..
    rw [moved_logs_self, hworld]
    cases h with
    | quiet hexecutions _ _ hattempts =>
        rw [drop_same hexecutions, List.append_nil]
        exact ⟨rfl, hattempts.resolve_left hstored⟩
    | stores _ _ hnone => exact absurd hnone hstored
  · constructor <;> simp [State.moved, hne]

/-- The mail logs of an execution log that is there already. -/
theorem mailsOf_append {db db' : Db} (h : db'.mailLogs = db.mailLogs ++ mails)
    (hids : ∀ mail ∈ mails, mail.executionLogId ≠ log.id) : mailsOf db' log = mailsOf db log := by
  have hnone : mails.filter (fun mail => mail.executionLogId = log.id) = [] := by
    rw [List.filter_eq_nil_iff]
    intro mail hmail
    simpa using hids mail hmail
  rw [mailsOf, h, List.filter_append, hnone, List.append_nil, mailsOf]

/-- The mail logs of the new execution log. -/
theorem mailsOf_new {db db' : Db} (h : db'.mailLogs = db.mailLogs ++ mails)
    (hlinked : ∀ mail ∈ db.mailLogs,
      mail.executionLogId ∈ db.executionLogs.map ExecutionLog.id)
    (hfresh : log.id ∉ db.executionLogs.map ExecutionLog.id)
    (hids : ∀ mail ∈ mails, mail.executionLogId = log.id) : mailsOf db' log = mails := by
  have hold : db.mailLogs.filter (fun mail => mail.executionLogId = log.id) = [] := by
    rw [List.filter_eq_nil_iff]
    intro mail hmail
    have hne : mail.executionLogId ≠ log.id := fun heq => hfresh (heq ▸ hlinked mail hmail)
    simpa using hne
  have hnew : mails.filter (fun mail => mail.executionLogId = log.id) = mails := by
    rw [List.filter_eq_self]
    intro mail hmail
    simpa using hids mail hmail
  rw [mailsOf, h, List.filter_append, hold, hnew, List.nil_append]

/-- A deletion takes all the mail logs of an execution log, or none. -/
theorem mailsOf_deleteLogs {db : Db} {ids : List Nat} (h : log.id ∉ ids) :
    mailsOf (deleteLogs ids db) log = mailsOf db log := by
  rw [mailsOf, deleteLogs, List.filter_filter, mailsOf]
  refine List.filter_congr fun mail _ => ?_
  by_cases heq : mail.executionLogId = log.id
  · simp [heq, h]
  · simp [heq]

theorem mem_deleteLogs {db : Db} {ids : List Nat} :
    log ∈ (deleteLogs ids db).executionLogs ↔ log ∈ db.executionLogs ∧ log.id ∉ ids := by
  rw [deleteLogs, List.mem_filter, decide_eq_true_eq]

omit [DecidableEq ι] [DecidableEq κ] in
/-- The cleanup does not touch what the executions know. -/
theorem systemInv_deleteLogs {ids : List Nat} (h : SystemInv ex ar s) :
    SystemInv ex ar { s with db := deleteLogs ids s.db } where
  sessions i := (h.sessions i).mono fun hrule => hrule.congr rfl
  archives k := (h.archives k).mono (fun hrule => hrule.congr rfl) fun harch => harch.congr rfl

end

section

variable {libs ex ar retentionDays size} {db₀ : Db} {s t : State ι κ} {label : Label ι κ}

theorem mem_expiredIds_append {db db' : Db} (new : List ExecutionLog) {cutoff : DateTime} {id : Nat}
    (h : db'.executionLogs = db.executionLogs ++ new) (hid : id ∈ expiredIds cutoff db) :
    id ∈ expiredIds cutoff db' := by
  obtain ⟨log, hlog, hexpired, hlogid⟩ := mem_expiredIds.mp hid
  exact mem_expiredIds.mpr ⟨log, by rw [h]; exact List.mem_append_left _ hlog, hexpired, hlogid⟩

omit [DecidableEq ι] [DecidableEq κ] in
/-- The logs stay as they are. -/
theorem Inv.quiet {system : Archiving.State ι κ} (hinv : Inv ex ar db₀ s)
    (hsystem : SystemInv ex ar system)
    (htold : ∀ i, Told (system.logs i) (system.world i) (system.phase i))
    (hexecutions : system.db.executionLogs = s.system.db.executionLogs)
    (hmails : system.db.mailLogs = s.system.db.mailLogs)
    (hkeep : ∀ i, s.system.logs i ≠ [] → system.logs i = s.system.logs i ∧
      (system.world i).attempts = (s.system.world i).attempts) :
    Inv ex ar db₀ { s with system } where
  system := hsystem
  told := htold
  nodup := by
    show (system.db.executionLogs.map ExecutionLog.id).Nodup
    rw [hexecutions]
    exact hinv.nodup
  linked := by
    show ∀ mail ∈ system.db.mailLogs, mail.executionLogId ∈
      system.db.executionLogs.map ExecutionLog.id
    rw [hexecutions, hmails]
    exact hinv.linked
  comes log hlog := by
    have hold : log ∈ s.system.db.executionLogs := hexecutions ▸ hlog
    have hcomes := (hinv.comes log hold).mono hkeep
    show Comes db₀ system log (mailsOf system.db log)
    rwa [mailsOf, hmails]
  selected cutoff ids hids id hid := by
    refine mem_expiredIds_append [] ?_ (hinv.selected cutoff ids hids id hid)
    rw [List.append_nil]
    exact hexecutions

omit [DecidableEq ι] [DecidableEq κ] in
/-- A new log, with its mail logs. -/
theorem Inv.stores {system : Archiving.State ι κ} {new : ExecutionLog} {mails : List MailLog}
    (hinv : Inv ex ar db₀ s) (hsystem : SystemInv ex ar system)
    (htold : ∀ i, Told (system.logs i) (system.world i) (system.phase i))
    (hfresh : new.id ∉ s.system.db.executionLogs.map ExecutionLog.id)
    (hexecutions : system.db.executionLogs = s.system.db.executionLogs ++ [new])
    (hmails : system.db.mailLogs = s.system.db.mailLogs ++ mails)
    (hids : ∀ mail ∈ mails, mail.executionLogId = new.id)
    (hkeep : ∀ i, s.system.logs i ≠ [] → system.logs i = s.system.logs i ∧
      (system.world i).attempts = (s.system.world i).attempts)
    (hnew : ∃ i, system.logs i = [new] ∧ Accounts (system.world i) new mails) :
    Inv ex ar db₀ { s with system } where
  system := hsystem
  told := htold
  nodup := by
    show (system.db.executionLogs.map ExecutionLog.id).Nodup
    rw [hexecutions, List.map_append, List.nodup_append]
    refine ⟨hinv.nodup, List.nodup_singleton _, ?_⟩
    rintro a ha b hb rfl
    exact hfresh (List.mem_singleton.mp hb ▸ ha)
  linked := by
    show ∀ mail ∈ system.db.mailLogs, mail.executionLogId ∈
      system.db.executionLogs.map ExecutionLog.id
    rw [hexecutions, hmails, List.map_append]
    intro mail hmail
    rcases List.mem_append.mp hmail with hold | hadded
    · exact List.mem_append_left _ (hinv.linked mail hold)
    · exact List.mem_append_right _ (List.mem_singleton.mpr (hids mail hadded))
  comes log hlog := by
    have hcases : log ∈ s.system.db.executionLogs ++ [new] := hexecutions ▸ hlog
    show Comes db₀ system log (mailsOf system.db log)
    rcases List.mem_append.mp hcases with hold | hlast
    · have hother : ∀ mail ∈ mails, mail.executionLogId ≠ log.id := by
        intro mail hmail heq
        rw [hids mail hmail] at heq
        exact hfresh (heq ▸ List.mem_map_of_mem hold)
      rw [mailsOf_append hmails hother]
      exact (hinv.comes log hold).mono hkeep
    · rw [List.mem_singleton.mp hlast, mailsOf_new hmails hinv.linked hfresh hids]
      exact .inr hnew
  selected cutoff ids hsel id hid :=
    mem_expiredIds_append [new] hexecutions (hinv.selected cutoff ids hsel id hid)

/-- A step of an execution or of a call of `archive_rule`. -/
theorem system_inv {system : Archiving.State ι κ} {a : Archiving.Label ι κ}
    (hinv : Inv ex ar db₀ s) (h : Archiving.step libs ex ar s.system a = some system) :
    Inv ex ar db₀ { s with system } := by
  have hsystem := step_systemInv hinv.system h
  obtain ⟨i, phase, w, rfl, htells⟩ | ⟨hexecutions, hmails, hlogs, hworld, hphase⟩ :=
    system_tells hinv.system hinv.told h
  · have htold := htells.told hinv.told
    have hkeep := htells.keep
    cases htells with
    | quiet hexecutions hmails =>
        exact hinv.quiet hsystem htold hexecutions hmails hkeep
    | stores new mails hnone hphase hfresh hexecutions hmails hids haccounts =>
        have hlogs : (s.system.moved i phase w).logs i = [new] := by
          rw [moved_logs_self, hnone, hexecutions, List.drop_left]
          rfl
        have hworld : (s.system.moved i phase w).world i = w := Function.update_self ..
        exact hinv.stores hsystem htold hfresh hexecutions hmails hids hkeep
          ⟨i, hlogs, by rw [hworld]; exact haccounts⟩
  · refine hinv.quiet hsystem ?_ hexecutions hmails fun i _ => ⟨by rw [hlogs], by rw [hworld]⟩
    rw [hlogs, hworld, hphase]
    exact hinv.told

end

/-! ## Whole runs -/

section

variable {libs ex ar retentionDays size} {db₀ : Db} {s t : State ι κ} {label : Label ι κ}
  {past : List (Label ι κ)}

omit [DecidableEq ι] [DecidableEq κ] in
/-- The DELETE statements of a batch. -/
theorem Inv.deleteLogs {ids : List Nat} {cutoff : DateTime} (hinv : Inv ex ar db₀ s) :
    Inv ex ar db₀
      { system := { s.system with db := LogLifecycle.deleteLogs ids s.system.db }
        cleanup := .running cutoff } where
  system := systemInv_deleteLogs hinv.system
  told := hinv.told
  nodup := deleteLogs_nodup hinv.nodup
  linked mail hmail := by
    obtain ⟨hold, hout⟩ := List.mem_filter.mp hmail
    obtain ⟨log, hlog, hid⟩ := List.mem_map.mp (hinv.linked mail hold)
    have hkept : log.id ∉ ids := by
      rw [hid]
      exact of_decide_eq_true hout
    exact List.mem_map.mpr ⟨log, mem_deleteLogs.mpr ⟨hlog, hkept⟩, hid⟩
  comes log hlog := by
    obtain ⟨hold, hout⟩ := mem_deleteLogs.mp hlog
    show Comes db₀ _ log (mailsOf (LogLifecycle.deleteLogs ids s.system.db) log)
    rw [mailsOf_deleteLogs hout]
    exact hinv.comes log hold
  selected _ _ h := by cases h

omit [DecidableEq ι] [DecidableEq κ] in
/-- The cleanup goes on, and has selected nothing. -/
theorem Inv.setCleanup {cleanup : CleanupPhase} (hinv : Inv ex ar db₀ s)
    (h : ∀ cutoff ids, cleanup = .selected cutoff ids →
      ∀ id ∈ ids, id ∈ expiredIds cutoff s.system.db) : Inv ex ar db₀ { s with cleanup } :=
  ⟨hinv.system, hinv.told, hinv.nodup, hinv.linked, hinv.comes, h⟩

/-- **What a step of the cleanup can do.** -/
inductive Cleans (retentionDays : Int) (size : Nat) (s : State ι κ) :
    Label ι κ → State ι κ → Prop
  | refused (now : DateTime) : Cleans retentionDays size s (.start now) s
  | started (now cutoff : DateTime)
      (hcutoff : LogRetention.retentionCutoff now retentionDays = .ok cutoff) :
      Cleans retentionDays size s (.start now) { s with cleanup := .running cutoff }
  | ended (label : Label ι κ) : Cleans retentionDays size s label { s with cleanup := .idle }
  | selected (cutoff : DateTime) (hrunning : s.cleanup = .running cutoff) :
      Cleans retentionDays size s (.select none)
        { s with cleanup := .selected cutoff ((expiredIds cutoff s.system.db).take size) }
  | deleted (fault : Option PyExc) (cutoff : DateTime) (ids : List Nat)
      (hselected : s.cleanup = .selected cutoff ids) :
      Cleans retentionDays size s (.delete fault)
        { system := { s.system with db := deleteLogs ids s.system.db }
          cleanup := .running cutoff }

theorem commitBatch_eq_ok {fault : Option PyExc} {ids : List Nat} {db db' : Db}
    (h : commitBatch fault ids db = .ok db') : db' = deleteLogs ids db := by
  cases fault with
  | some exc => cases h
  | none =>
      rw [commitBatch_none] at h
      exact (Except.ok.inj h).symm

theorem step_cases (h : step libs ex ar retentionDays size s label = some t) :
    (∃ a system, label = .system a ∧ Archiving.step libs ex ar s.system a = some system ∧
      t = { s with system }) ∨ Cleans retentionDays size s label t := by
  cases label with
  | system a =>
      obtain ⟨system, hsystem, rfl⟩ := Option.map_eq_some_iff.mp h
      exact .inl ⟨a, system, rfl, hsystem, rfl⟩
  | start now =>
      simp only [step] at h
      split at h
      case h_1 =>
        split at h
        case h_1 =>
          cases h
          exact .inr (.refused now)
        case h_2 cutoff hcutoff =>
          cases h
          exact .inr (.started now cutoff hcutoff)
      case h_2 => cases h
  | select fault =>
      simp only [step] at h
      split at h
      case h_1 =>
        cases h
        exact .inr (.ended _)
      case h_2 cutoff hrunning =>
        cases h
        split
        case isTrue => exact .inr (.ended _)
        case isFalse => exact .inr (.selected cutoff hrunning)
      case h_3 => cases h
  | delete fault =>
      simp only [step] at h
      split at h
      case h_1 cutoff ids hselected =>
        split at h
        case h_1 =>
          cases h
          exact .inr (.ended _)
        case h_2 db hcommit =>
          cases h
          rw [commitBatch_eq_ok hcommit]
          exact .inr (.deleted fault cutoff ids hselected)
      case h_2 => cases h

theorem step_inv (hinv : Inv ex ar db₀ s)
    (h : step libs ex ar retentionDays size s label = some t) : Inv ex ar db₀ t := by
  obtain ⟨a, system, rfl, hsystem, rfl⟩ | hcleans := step_cases h
  · exact system_inv hinv hsystem
  · cases hcleans with
    | refused => exact hinv
    | started => exact hinv.setCleanup fun _ _ hsel => by cases hsel
    | ended => exact hinv.setCleanup fun _ _ hsel => by cases hsel
    | selected cutoff =>
        refine hinv.setCleanup fun cutoff' ids hsel id hid => ?_
        cases hsel
        exact List.mem_of_mem_take hid
    | deleted => exact hinv.deleteLogs

omit [DecidableEq ι] [DecidableEq κ] in
theorem Demanded.snoc {cutoff : DateTime} (h : Demanded retentionDays past cutoff) :
    Demanded retentionDays (past ++ [label]) cutoff := by
  obtain ⟨now, hstart, hcutoff⟩ := h
  exact ⟨now, List.mem_append_left _ hstart, hcutoff⟩

/-- A step of the executions takes no log away, and a log that it adds is there. -/
theorem kept_system {system : Archiving.State ι κ} {a : Archiving.Label ι κ}
    (hinv : Inv ex ar db₀ s) (h : Archiving.step libs ex ar s.system a = some system) :
    (∀ log ∈ s.system.db.executionLogs, log ∈ system.db.executionLogs) ∧
      ∀ i, ∀ log ∈ system.logs i, log ∈ s.system.logs i ∨ log ∈ system.db.executionLogs := by
  obtain ⟨i, phase, w, rfl, htells⟩ | ⟨hexecutions, -, hlogs, -⟩ :=
    system_tells hinv.system hinv.told h
  · obtain ⟨new, hnew⟩ : ∃ new, w.store.db.executionLogs = s.system.db.executionLogs ++ new := by
      cases htells with
      | quiet hexecutions => exact ⟨[], by rw [hexecutions, List.append_nil]⟩
      | stores log _ _ _ _ hexecutions => exact ⟨[log], hexecutions⟩
    constructor
    · intro log hlog
      show log ∈ w.store.db.executionLogs
      rw [hnew]
      exact List.mem_append_left _ hlog
    · intro j log hlog
      rcases eq_or_ne j i with rfl | hne
      · rw [moved_logs_self] at hlog
        exact (List.mem_append.mp hlog).imp_right List.mem_of_mem_drop
      · have hsame : (s.system.moved i phase w).logs j = s.system.logs j :=
          Function.update_of_ne hne ..
        rw [hsame] at hlog
        exact .inl hlog
  · constructor
    · intro log hlog
      rwa [hexecutions]
    · intro j log hlog
      rw [hlogs] at hlog
      exact .inl hlog

theorem step_kept (hinv : Inv ex ar db₀ s) (hkept : Kept retentionDays db₀ past s)
    (h : step libs ex ar retentionDays size s label = some t) :
    Kept retentionDays db₀ (past ++ [label]) t := by
  have hdemanded : ∀ log, (∃ cutoff, Demanded retentionDays past cutoff ∧
      (executionRow log).Expired cutoff) → ∃ cutoff, Demanded retentionDays (past ++ [label])
        cutoff ∧ (executionRow log).Expired cutoff := by
    rintro log ⟨cutoff, hcutoff, hexpired⟩
    exact ⟨cutoff, hcutoff.snoc, hexpired⟩
  have hstay : ∀ log, (log ∈ db₀.executionLogs ∨ ∃ i, log ∈ s.system.logs i) →
      log ∈ s.system.db.executionLogs ∨ ∃ cutoff, Demanded retentionDays (past ++ [label])
        cutoff ∧ (executionRow log).Expired cutoff :=
    fun log hlog => (hkept.kept log hlog).imp_right (hdemanded log)
  obtain ⟨a, system, rfl, hsystem, rfl⟩ | hcleans := step_cases h
  · obtain ⟨hstays, hadds⟩ := kept_system hinv hsystem
    refine ⟨fun cutoff hrunning => (hkept.running cutoff hrunning).snoc,
      fun cutoff ids hsel => (hkept.selected cutoff ids hsel).snoc, fun log hlog => ?_⟩
    have hcases : (log ∈ db₀.executionLogs ∨ ∃ i, log ∈ s.system.logs i) ∨
        log ∈ system.db.executionLogs := by
      rcases hlog with hfirst | ⟨i, hi⟩
      · exact .inl (.inl hfirst)
      · exact (hadds i log hi).imp_left fun hold => .inr ⟨i, hold⟩
    rcases hcases with hold | hnew
    · exact (hstay log hold).imp_left (hstays log)
    · exact .inl hnew
  · cases hcleans with
    | refused now =>
        exact ⟨fun cutoff hrunning => (hkept.running cutoff hrunning).snoc,
          fun cutoff ids hsel => (hkept.selected cutoff ids hsel).snoc, hstay⟩
    | started now cutoff hcutoff =>
        refine ⟨fun cutoff' hrunning => ?_, (fun _ _ hsel => by cases hsel), hstay⟩
        cases hrunning
        exact ⟨now, List.mem_append_right _ List.mem_cons_self, hcutoff⟩
    | ended => exact ⟨(fun _ h => by cases h), (fun _ _ h => by cases h), hstay⟩
    | selected cutoff hrunning =>
        refine ⟨(fun _ h => by cases h), fun cutoff' ids hsel => ?_, hstay⟩
        cases hsel
        exact (hkept.running cutoff hrunning).snoc
    | deleted fault cutoff ids hselected =>
        have hcutoff : Demanded retentionDays (past ++ [.delete fault]) cutoff :=
          (hkept.selected cutoff ids hselected).snoc
        refine ⟨fun cutoff' hrunning => ?_, (fun _ _ h => by cases h), fun log hlog => ?_⟩
        · cases hrunning
          exact hcutoff
        · rcases hstay log hlog with hthere | hgone
          · by_cases hid : log.id ∈ ids
            · obtain ⟨other, hother, hexpired, heq⟩ :=
                mem_expiredIds.mp (hinv.selected cutoff ids hselected log.id hid)
              have hsame : other = log := List.inj_on_of_nodup_map hinv.nodup hother hthere heq
              rw [hsame] at hexpired
              exact .inr ⟨cutoff, hcutoff, hexpired⟩
            · exact .inl (mem_deleteLogs.mpr ⟨hthere, hid⟩)
          · exact .inr hgone

omit [DecidableEq ι] [DecidableEq κ] in
theorem Initial.inv (h : Initial s) : Inv ex ar s.system.db s where
  system := h.system.systemInv ex ar
  told i := by
    rw [h.system.phase]
    exact h.system.logs i
  nodup := h.nodup
  linked := h.linked
  comes _ hlog := .inl ⟨hlog, rfl⟩
  selected _ _ hsel := by
    rw [h.cleanup] at hsel
    cases hsel

omit [DecidableEq ι] [DecidableEq κ] in
theorem Initial.kept (h : Initial s) : Kept retentionDays s.system.db [] s where
  running _ hrunning := by
    rw [h.cleanup] at hrunning
    cases hrunning
  selected _ _ hsel := by
    rw [h.cleanup] at hsel
    cases hsel
  kept log hlog := by
    rcases hlog with hfirst | ⟨i, hi⟩
    · exact .inl hfirst
    · rw [h.system.logs] at hi
      cases hi

end

/-- The two tables after the steps `labels`, which have begun with the tables of `db₀`. -/
structure LogsOk (retentionDays : Int) (db₀ : Db) (labels : List (Label ι κ)) (s : State ι κ) :
    Prop where
  nodup : (s.system.db.executionLogs.map ExecutionLog.id).Nodup
  /-- no mail log without its execution log -/
  linked : ∀ mail ∈ s.system.db.mailLogs,
    mail.executionLogId ∈ s.system.db.executionLogs.map ExecutionLog.id
  /-- an execution log and all its mail logs, as they were at first or as one execution has
  stored them, telling of its last attempt -/
  comes : ∀ log ∈ s.system.db.executionLogs,
    (log ∈ db₀.executionLogs ∧ mailsOf s.system.db log = mailsOf db₀ log) ∨
      ∃ i last, s.system.logs i = [log] ∧ (s.system.world i).attempts.head? = some last ∧
        LogsTell last log (mailsOf s.system.db log)
  /-- a log that is gone had expired when a cleanup began -/
  kept : ∀ log, (log ∈ db₀.executionLogs ∨ ∃ i, log ∈ s.system.logs i) →
    log ∈ s.system.db.executionLogs ∨ ∃ now cutoff, .start now ∈ labels ∧
      LogRetention.retentionCutoff now retentionDays = .ok cutoff ∧
      (executionRow log).Expired cutoff

/-- **The logs over their whole life**, whatever runs, raises or is cleaned up meanwhile. -/
theorem log_lifecycle (libs : Libraries) (ex : ι → Execution) (ar : κ → ArchiveRequest)
    (retentionDays : Int) (size : Nat) (s t : State ι κ) (labels : List (Label ι κ))
    (hs : Initial s) (hrun : fire (step libs ex ar retentionDays size) s labels = some t) :
    LogsOk retentionDays s.system.db labels t := by
  have hboth : Inv ex ar s.system.db t ∧ Kept retentionDays s.system.db ([] ++ labels) t := by
    refine fire_history (P := fun past u => Inv ex ar s.system.db u ∧
      Kept retentionDays s.system.db past u) ?_ (fire_nil.mpr rfl) ⟨hs.inv, hs.kept⟩ hrun
    rintro past u label v - ⟨hinv, hkept⟩ hstep
    exact ⟨step_inv hinv hstep, step_kept hinv hkept hstep⟩
  obtain ⟨hinv, hkept⟩ := hboth
  refine ⟨hinv.nodup, hinv.linked, fun log hlog => ?_, fun log hlog => ?_⟩
  · obtain hfirst | ⟨i, hlogs, last, hlast, htell⟩ := hinv.comes log hlog
    · exact .inl hfirst
    · exact .inr ⟨i, last, hlogs, hlast, htell⟩
  · obtain hthere | ⟨cutoff, ⟨now, hstart, hcutoff⟩, hexpired⟩ := hkept.kept log hlog
    · exact .inl hthere
    · exact .inr ⟨now, cutoff, hstart, hcutoff, hexpired⟩

/-! ## A log that is stored during one cleanup and deleted by the next -/

def soloState : State Unit Unit where
  system := soloStart
  cleanup := .idle

def soloLabels : List (Label Unit Unit) :=
  [.system (.load ()), .system (.acquire ()), .start (20000 * DateTime.hour),
    .system (.attempts ()), .system (.persist ()), .select none, .system (.release ()),
    .start (30000 * DateTime.hour), .select none, .delete none]

theorem log_lifecycle_cleaned : ∃ t,
    fire (step Sample.libs soloExecution soloArchive 90 500) soloState soloLabels = some t ∧
      t.system.db.executionLogs.length = 0 ∧ (t.system.logs ()).length = 1 ∧
      LogsOk 90 soloState.system.db soloLabels t := by
  have hrun : (fire (step Sample.libs soloExecution soloArchive 90 500) soloState soloLabels).map
      (fun t => (t.system.db.executionLogs.length, (t.system.logs ()).length)) = some (0, 1) := by
    decide +kernel
  have hinitial : Initial soloState :=
    ⟨soloStart_initial, rfl, List.nodup_nil, fun _ h => by cases h⟩
  obtain ⟨t, ht, hcounts⟩ := Option.map_eq_some_iff.mp hrun
  obtain ⟨hnone, hone⟩ := Prod.mk.inj hcounts
  exact ⟨t, ht, hnone, hone, log_lifecycle Sample.libs soloExecution soloArchive 90 500 soloState t
    soloLabels hinitial ht⟩

end EarlyWarning.LogLifecycle
