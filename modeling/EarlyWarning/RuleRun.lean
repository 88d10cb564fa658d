/-
# `RuleRun` — one run of `execute_rule_by_id`

A run looks its rule up, takes the lease, attempts the rule, writes the result and gives
the lease back.  Each part has a specification below, and `executeRuleById_run` composes
them: a run is refused before the first attempt, or interrupted in its attempts, or it
finishes them, and then the database has the whole result or nothing of it.

Whatever the run does to the table of leases is left open here (`Db.withLeases`): no
theorem about the ledger or the logs depends on it.
-/
import EarlyWarning.Persistence

namespace EarlyWarning

open Lib

/-! ## The leases are a table of their own -/

def Db.withLeases (db : Db) (leases : LeaseTable) : Db := { db with leases }

section

variable (db : Db) (leases : LeaseTable)

theorem Db.recordKey_withLeases (ruleId : Nat) (now : DateTime) (key : String) :
    (db.withLeases leases).recordKey ruleId now key =
      (db.recordKey ruleId now key).withLeases leases := by
  have hfind : (db.withLeases leases).findSuppression ruleId key =
      db.findSuppression ruleId key := rfl
  unfold Db.recordKey
  rw [hfind]
  cases db.findSuppression ruleId key with
  | none => rfl
  | some record => rfl

theorem Db.recordKeys_withLeases (ruleId : Nat) (now : DateTime) (keys : List String) :
    ∀ db : Db, (db.withLeases leases).recordKeys ruleId now keys =
      (db.recordKeys ruleId now keys).withLeases leases := by
  induction keys with
  | nil => exact fun _ => rfl
  | cons key keys ih =>
      intro db
      show ((db.withLeases leases).recordKey ruleId now key).recordKeys ruleId now keys = _
      rw [Db.recordKey_withLeases, ih]
      rfl

theorem Db.storeMails_withLeases (executionLogId : Nat) (mailResults : List ExecutionMailResult) :
    ∀ db : Db, (db.withLeases leases).storeMails executionLogId mailResults =
      (db.storeMails executionLogId mailResults).withLeases leases := by
  induction mailResults with
  | nil => exact fun _ => rfl
  | cons m ms ih => exact fun db => ih (db.write (.insertMailLog (buildMailLog executionLogId m)))

theorem Db.storeSuppression_withLeases (ruleId : Nat) (attempt : ExecutionAttempt) :
    (db.withLeases leases).storeSuppression ruleId attempt =
      (db.storeSuppression ruleId attempt).withLeases leases := by
  unfold Db.storeSuppression
  split
  · split
    · exact Db.recordKeys_withLeases leases ruleId _ _ db
    · rfl
  · rfl

theorem Db.storeResult_withLeases (env : RunEnv) (ruleId : Nat) (triggerType : TriggerType)
    (attempt : ExecutionAttempt) :
    (db.withLeases leases).storeResult env ruleId triggerType attempt =
      (db.storeResult env ruleId triggerType attempt).withLeases leases := by
  unfold Db.storeResult
  rw [Db.storeSuppression_withLeases]
  exact Db.storeMails_withLeases leases
    (nextId ((db.storeSuppression ruleId attempt).executionLogs.map (·.id)))
    attempt.result.mailResults
    ((db.storeSuppression ruleId attempt).write (.insertExecutionLog
      (buildExecutionLog ruleId triggerType attempt.result env.startedAt env.finishedAt)))

end

section

/-! ## The lease -/

variable {env : RunEnv} {w : World} {ruleId : Nat}

theorem World.flushed_nil (hp : w.store.pending = []) : w.flushed = w := by
  unfold World.flushed
  rw [hp, List.foldl_nil, ← hp]

/-- A new transaction on a database with these leases. -/
structure World.Entered (w t : World) (leases : LeaseTable) : Prop where
  store : t.store =
    { db := w.store.db.withLeases leases, work := w.store.db.withLeases leases, pending := [] }
  rule : t.rule = none
  attempts : t.attempts = w.attempts
  sleeps : t.sleeps = w.sleeps

/-- **Acquiring the lease.**  The upsert is committed or it is not; the body starts in a
new transaction, with the rule expired and the caller's row in the table. -/
theorem enterLease_wp {Q : Unit → World → Prop} {E : PyExc → World → Prop}
    (hp : w.store.pending = []) (hwork : w.store.work = w.store.db)
    (hok : ∀ t leases row, w.Entered t leases →
      newLease ruleId env.ownerToken env.leaseSeconds env.acquiredAt = .ok row →
      acquireStatement w.store.db.leases row = (leases, 1) → Q () t)
    (herr : ∀ e t leases, w.Commits t (w.store.db.withLeases leases) → E e t) :
    wp (enterLease env ruleId) Q E w := by
  have hkeep : ∀ e t, w.Uncommitted t → E e t := fun e t ht =>
    herr e t w.store.db.leases ⟨ht.db, ht.attempts, ht.sleeps⟩
  unfold enterLease
  rw [wp_bind]
  refine liftExcept_wp (fun row hrow => ?_) fun e => hkeep e w (.refl w)
  rw [wp_bind, wp_tryCatch]
  unfold acquireLease
  rw [wp_bind, wp_get, wp_bind]
  refine sessionExecute_wp (fun m n => ?_) (fun u => ⟨rfl, rfl, rfl⟩)
    fun e t ht => rollbackAndRaise_wp fun e t' ht' => hkeep e t' (ht.trans ht')
  -- the transaction after the upsert, which the commit makes the database
  suffices hrest : ∀ u, u.store =
      { db := w.store.db
        work := w.store.db.withLeases (acquireStatement w.store.db.leases row).1
        pending := [] } → w.Uncommitted u →
      wp (do sessionCommit env; pure (acquireStatement w.store.db.leases row).2) _ _ u by
    have hstart : ({ w.flushed with ops := m } : World) = { w with ops := m } := by
      rw [World.flushed_nil hp]
    rw [hstart, hwork]
    refine hrest _ ?_ ⟨rfl, rfl, rfl⟩
    show (Store.mk w.store.db { w.store.work with
      leases := (acquireStatement w.store.db.leases row).1 } w.store.pending) = _
    rw [hp, hwork]
    rfl
  intro u hustore hwu
  have hentered : ∀ k, w.Entered { u.flushed.committed with ops := k }
      (acquireStatement w.store.db.leases row).1 := by
    intro k
    rw [World.flushed_nil (by rw [hustore])]
    refine ⟨?_, rfl, hwu.attempts, hwu.sleeps⟩
    simp [World.committed, hustore]
  rw [wp_bind]
  refine sessionCommit_wp (fun k => ?_) (fun e k => rollbackAndRaise_wp fun e t ht => ?_)
    fun e t ht => rollbackAndRaise_wp fun e t' ht' => hkeep e t' ((hwu.trans ht).trans ht')
  · rw [wp_pure]
    have hent := hentered k
    by_cases hcount : (acquireStatement w.store.db.leases row).2 ≠ 1
    · rw [if_pos hcount]
      exact herr _ _ _ ⟨by rw [hent.store], hent.attempts, hent.sleeps⟩
    · rw [if_neg hcount]
      exact hok _ _ row hent hrow (Prod.ext rfl (not_not.mp hcount))
  · have hent := hentered k
    exact herr e t _ ⟨by rw [ht.db, hent.store], ht.attempts.trans hent.attempts,
      ht.sleeps.trans hent.sleeps⟩

/-- **Giving the lease back**, from whatever state the body left the session in.  The
rollback comes first, so the commit writes the delete and nothing else. -/
theorem releaseRuleExecutionLease_wp {Q : Unit → World → Prop} {E : PyExc → World → Prop}
    (hok : ∀ t, w.Commits t (w.store.db.withLeases
      (releaseStatement w.store.db.leases ruleId env.ownerToken)) → Q () t)
    (herr : ∀ e t leases, w.Commits t (w.store.db.withLeases leases) → E e t) :
    wp (releaseRuleExecutionLease env ruleId) Q E w := by
  have hkeep : ∀ e t, w.Uncommitted t → E e t := fun e t ht =>
    herr e t w.store.db.leases ⟨ht.db, ht.attempts, ht.sleeps⟩
  have hhandler : ∀ (e : PyExc) u leases, w.Commits u (w.store.db.withLeases leases) →
      wp (do sessionRollback env; throw e : Svc Unit) Q E u := by
    intro e u leases hu
    rw [wp_bind]
    have hstay : ∀ e t, u.Uncommitted t → E e t := fun e t ht =>
      herr e t leases ⟨ht.db.trans hu.db, ht.attempts.trans hu.attempts,
        ht.sleeps.trans hu.sleeps⟩
    exact sessionRollback_wp (fun n => hstay e _ ⟨rfl, rfl, rfl⟩) hstay
  have hundone : ∀ (e : PyExc) u, w.Uncommitted u →
      wp (do sessionRollback env; throw e : Svc Unit) Q E u := fun e u hu =>
    hhandler e u w.store.db.leases ⟨hu.db, hu.attempts, hu.sleeps⟩
  unfold releaseRuleExecutionLease releaseLease
  rw [wp_tryCatch, wp_bind]
  refine sessionRollback_wp (fun k => ?_) hundone
  rw [wp_bind]
  refine sessionExecute_wp (fun m n => ?_) (fun u => ⟨rfl, rfl, rfl⟩)
    fun e t ht => hundone e t ⟨ht.db, ht.attempts, ht.sleeps⟩
  refine sessionCommit_wp (fun j => hok _ ⟨rfl, rfl, rfl⟩)
    (fun e j => hhandler e _ _ ⟨rfl, rfl, rfl⟩)
    fun e t ht => hundone e t ⟨ht.db, ht.attempts, ht.sleeps⟩

/-! ## The body -/

/-- The attempts a request made, newest first, when the loop ended with `attempt`. -/
structure LoopEnd (libs : Libraries) (db : Db) (rule : AlertRule) (request : RunRequest)
    (last : AttemptRecord) (earlier : List AttemptRecord) (attempt : ExecutionAttempt) :
    Prop where
  returned : last.Returned libs db rule attempt
  retried : ∀ r ∈ earlier, r.Retried libs db rule
  bound : earlier.length + 1 ≤ totalAttempts request.maxAttempts
  stop : isRetryableResult attempt.result = true →
    earlier.length + 1 = totalAttempts request.maxAttempts

/-- What is persisted of an attempt, after `n` attempts. -/
def reported (attempt : ExecutionAttempt) (n : Nat) : ExecutionAttempt :=
  { attempt with result := withExhaustedRetryMessage attempt.result n }

/-- The body of the `with` statement, begun on the database `db`: its outcome, the
attempts and pauses it made, newest first, and the database it leaves. -/
inductive BodyRun (libs : Libraries) (env : RunEnv) (request : RunRequest) (rule : AlertRule)
    (db : Db) : Except PyExc ExecutionLog → List AttemptRecord → List Rat → Db → Prop
  /-- an attempt or a pause raised -/
  | interrupted (e : PyExc) (attempts : List AttemptRecord) (sleeps : List Rat)
      (hfollows : ∀ r ∈ attempts, r.Follows libs db rule)
      (hretried : ∀ r ∈ attempts.tail, r.Retried libs db rule)
      (hbound : attempts.length ≤ totalAttempts request.maxAttempts)
      (hraised : Raised env attempts) :
      BodyRun libs env request rule db (.error e) attempts sleeps db
  /-- the result could not be persisted -/
  | unsaved (e : PyExc) (last : AttemptRecord) (earlier : List AttemptRecord)
      (attempt : ExecutionAttempt)
      (hend : LoopEnd libs db rule request last earlier attempt) :
      BodyRun libs env request rule db (.error e) (last :: earlier)
        (pauses request.retryDelaySeconds earlier.length) db
  /-- the result was persisted; an exception after the commit does not undo it -/
  | saved (out : Except PyExc ExecutionLog) (last : AttemptRecord)
      (earlier : List AttemptRecord) (attempt : ExecutionAttempt)
      (hend : LoopEnd libs db rule request last earlier attempt)
      (hout : ∀ log, out = .ok log → log = db.storedLog env request.ruleId request.triggerType
        (reported attempt (earlier.length + 1)).result) :
      BodyRun libs env request rule db out (last :: earlier)
        (pauses request.retryDelaySeconds earlier.length)
        (db.storeResult env request.ruleId request.triggerType
          (reported attempt (earlier.length + 1)))

variable {libs : Libraries} {rule : AlertRule} {request : RunRequest} {db : Db}

theorem totalAttempts_pos (maxAttempts : Int) : 0 < totalAttempts maxAttempts := by
  unfold totalAttempts
  omega

/-- **The body**, in a transaction that has seen nothing but `db`. -/
theorem executeLeasedRule_run (hw : w.Ready request.ruleId rule)
    (hdb : w.store.db = db) (hwork : w.store.work = db) (hattempts : w.attempts = [])
    (hsleeps : w.sleeps = []) :
    wp (executeLeasedRule libs env request)
      (fun log t => BodyRun libs env request rule db (.ok log) t.attempts t.sleeps t.store.db)
      (fun e t => BodyRun libs env request rule db (.error e) t.attempts t.sleeps t.store.db)
      w := by
  unfold executeLeasedRule
  rw [wp_bind]
  refine attemptLoop_wp hw (totalAttempts_pos _)
    (fun u last earlier attempt hu hlast hearlier hbound hstop husleeps => ?_)
    fun e t attempts ht hfol htail hlen hraised => ?_
  · rw [hwork] at hlast hearlier
    have hend : LoopEnd libs db rule request last earlier attempt :=
      ⟨hlast, hearlier, hbound, hstop⟩
    have hua : u.attempts = last :: earlier := by
      rw [hu.attempts_eq, hattempts, List.append_nil]
    have hus : u.sleeps = pauses request.retryDelaySeconds earlier.length := by
      rw [husleeps, hsleeps, List.append_nil]
    have huw : u.store.work = db := by rw [hu.store, hwork]
    have hk : 1 + earlier.length = earlier.length + 1 := Nat.add_comm _ _
    show wp (persistExecutionResult env request.ruleId request.triggerType
      (reported attempt (1 + earlier.length))) _ _ u
    rw [hk]
    refine persistExecutionResult_wp hu.ready.knows (fun t ht => ?_) (fun e t ht => ?_)
      fun e t ht => ?_
    · rw [ht.attempts, ht.sleeps, ht.db, huw, hua, hus]
      exact .saved _ last earlier attempt hend fun log h => (Except.ok.inj h).symm
    · rw [ht.attempts, ht.sleeps, ht.db, hu.store, hdb, hua, hus]
      exact .unsaved e last earlier attempt hend
    · rw [ht.attempts, ht.sleeps, ht.db, huw, hua, hus]
      exact .saved _ last earlier attempt hend fun log h => by cases h
  · rw [hwork] at hfol htail
    rw [ht.attempts_eq, ht.store, hdb, hattempts, List.append_nil]
    exact .interrupted e attempts t.sleeps hfol htail hlen hraised

/-- **All or nothing.**  The body leaves the database alone, or adds to it the result of
the last attempt. -/
theorem BodyRun.db_cases {out : Except PyExc ExecutionLog} {attempts : List AttemptRecord}
    {sleeps : List Rat} {after : Db}
    (h : BodyRun libs env request rule db out attempts sleeps after) :
    (after = db ∧ ∀ log, out ≠ .ok log) ∨
    ∃ last earlier attempt, attempts = last :: earlier ∧
      LoopEnd libs db rule request last earlier attempt ∧
      after = db.storeResult env request.ruleId request.triggerType
        (reported attempt attempts.length) ∧
      ∀ log, out = .ok log → log = db.storedLog env request.ruleId request.triggerType
        (reported attempt attempts.length).result := by
  cases h with
  | interrupted e => exact .inl ⟨rfl, fun _ h => by cases h⟩
  | unsaved e => exact .inl ⟨rfl, fun _ h => by cases h⟩
  | saved _ last earlier attempt hend hout =>
      exact .inr ⟨last, earlier, attempt, rfl, hend, rfl, hout⟩

/-! What an attempt did does not depend on the leases it saw. -/

section

variable {leases : LeaseTable} {r : AttemptRecord}

theorem AttemptRecord.Follows.withoutLeases (h : r.Follows libs (db.withLeases leases) rule) :
    r.Follows libs db rule :=
  ⟨h.now_isSome, h.decided, h.filtered, h.built, h.handed⟩

theorem AttemptRecord.Returned.withoutLeases {attempt : ExecutionAttempt}
    (h : r.Returned libs (db.withLeases leases) rule attempt) :
    r.Returned libs db rule attempt :=
  ⟨h.returned, h.follows.withoutLeases, h.outcome, h.state⟩

theorem AttemptRecord.Retried.withoutLeases (h : r.Retried libs (db.withLeases leases) rule) :
    r.Retried libs db rule := by
  obtain ⟨attempt, hret, hretry⟩ := h
  exact ⟨attempt, hret.withoutLeases, hretry⟩

theorem LoopEnd.withoutLeases {last : AttemptRecord} {earlier : List AttemptRecord}
    {attempt : ExecutionAttempt}
    (h : LoopEnd libs (db.withLeases leases) rule request last earlier attempt) :
    LoopEnd libs db rule request last earlier attempt :=
  ⟨h.returned.withoutLeases, fun r hr => (h.retried r hr).withoutLeases, h.bound, h.stop⟩

theorem BodyRun.withoutLeases {out : Except PyExc ExecutionLog}
    {attempts : List AttemptRecord} {sleeps : List Rat} {after : Db}
    (h : BodyRun libs env request rule (db.withLeases leases) out attempts sleeps after) :
    ∃ after', after = after'.withLeases leases ∧
      BodyRun libs env request rule db out attempts sleeps after' := by
  cases h with
  | interrupted e _ _ hfol htail hlen hraised =>
      exact ⟨db, rfl, .interrupted e _ _ (fun r hr => (hfol r hr).withoutLeases)
        (fun r hr => (htail r hr).withoutLeases) hlen hraised⟩
  | unsaved e last earlier attempt hend =>
      exact ⟨db, rfl, .unsaved e last earlier attempt hend.withoutLeases⟩
  | saved _ last earlier attempt hend hout =>
      exact ⟨_, Db.storeResult_withLeases db leases env request.ruleId request.triggerType _,
        .saved _ last earlier attempt hend.withoutLeases hout⟩

end

/-! ## The run -/

/-- The rule is looked up; a missing or archived one is refused. -/
theorem loadActiveRule_wp {Q : Unit → World → Prop} {E : PyExc → World → Prop}
    (hp : w.store.pending = []) (hf : w.RuleFresh ruleId)
    (hok : ∀ n rule, w.store.work.findRule ruleId = some rule → rule.archivedAt = none →
      Q () { w with ops := n, rule := some rule })
    (herr : ∀ e t, w.Uncommitted t → E e t) :
    wp (loadActiveRule env ruleId) Q E w := by
  unfold loadActiveRule
  rw [wp_bind]
  refine sessionGetRule_wp hp hf (fun n => ?_) fun e n => herr e _ ⟨rfl, rfl, rfl⟩
  cases hfound : w.store.work.findRule ruleId with
  | none => exact herr _ _ ⟨rfl, rfl, rfl⟩
  | some rule =>
      by_cases harch : rule.archivedAt.isSome = true
      · simp only [harch, if_true]
        exact herr _ _ ⟨rfl, rfl, rfl⟩
      · simp only [harch]
        exact hok n rule hfound (by simpa using harch)

/-- A run of `execute_rule_by_id` on the database `db`: its outcome, and the state it ends
in. -/
inductive RuleRun (libs : Libraries) (env : RunEnv) (request : RunRequest) (db : Db) :
    Except PyExc ExecutionLog → World → Prop
  /-- no rule to run, or no lease -/
  | refused (e : PyExc) (t : World) (leases : LeaseTable) (hattempts : t.attempts = [])
      (hsleeps : t.sleeps = []) (hdb : t.store.db = db.withLeases leases) :
      RuleRun libs env request db (.error e) t
  /-- the body ran, and the lease was given back or not -/
  | ran (rule : AlertRule) (body out : Except PyExc ExecutionLog) (after : Db)
      (leases : LeaseTable) (t : World)
      (hfound : db.findRule request.ruleId = some rule) (hactive : rule.archivedAt = none)
      (hbody : BodyRun libs env request rule db body t.attempts t.sleeps after)
      (hdb : t.store.db = after.withLeases leases)
      (hok : ∀ log, out = .ok log → body = .ok log)
      (herror : ∀ e, body = .error e → out = .error e) :
      RuleRun libs env request db out t

/-- **One run**, whatever raises. -/
theorem executeRuleById_run (libs : Libraries) (env : RunEnv) (request : RunRequest) (db : Db) :
    RuleRun libs env request db (exec (executeRuleById libs env request) (World.start db)).1
      (exec (executeRuleById libs env request) (World.start db)).2 := by
  refine wp_exec (R := RuleRun libs env request db).mp ?_
  unfold executeRuleById ruleExecutionLease
  rw [wp_bind]
  refine loadActiveRule_wp rfl (.inl rfl) (fun n rule hfound hactive => ?_)
    fun e t ht => .refused e t db.leases ht.attempts ht.sleeps ht.db
  rw [wp_bind]
  refine enterLease_wp rfl rfl (fun u leases row hu _ _ => ?_)
    fun e t leases ht => .refused e t leases ht.attempts ht.sleeps ht.db
  have hready : u.Ready request.ruleId rule :=
    ⟨by rw [hu.store], by rw [hu.store]; exact hfound, .inl hu.rule⟩
  rw [wp_bind, wp_tryCatch]
  have hdb : u.store.db = db.withLeases leases := by rw [hu.store]; rfl
  refine wp_mono (executeLeasedRule_run hready hdb (by rw [hu.store]; rfl) hu.attempts hu.sleeps)
    (fun log v hv => ?_) fun e v hv => ?_
  · obtain ⟨after, hafter, hbody⟩ := hv.withoutLeases
    rw [wp_bind]
    refine releaseRuleExecutionLease_wp (fun t ht => ?_) fun e t leases' ht => ?_
    · rw [wp_pure]
      refine .ran rule (.ok log) _ after _ t hfound hactive ?_ (by rw [ht.db, hafter]; rfl)
        (fun _ h => h) fun e h => by cases h
      rw [ht.attempts, ht.sleeps]
      exact hbody
    · refine .ran rule (.ok log) _ after leases' t hfound hactive ?_ (by rw [ht.db, hafter]; rfl)
        (fun _ h => by cases h) fun e h => by cases h
      rw [ht.attempts, ht.sleeps]
      exact hbody
  · obtain ⟨after, hafter, hbody⟩ := hv.withoutLeases
    unfold releaseAndRaise
    rw [wp_bind, wp_tryCatch]
    have hraise : ∀ t leases', v.Commits t (v.store.db.withLeases leases') →
        RuleRun libs env request db (.error e) t := by
      intro t leases' ht
      refine .ran rule (.error e) _ after leases' t hfound hactive ?_ (by rw [ht.db, hafter]; rfl)
        (fun _ h => by cases h) fun _ h => h
      rw [ht.attempts, ht.sleeps]
      exact hbody
    exact releaseRuleExecutionLease_wp (fun t ht => hraise t _ ht)
      fun _ t leases' ht => hraise t leases' ht

end

/-! ## A rule to run

One rule that suppresses duplicates by the column `k` within 24 hours, its data source and
an SMTP server, and libraries that accept every query and render every template as it is. -/

namespace Sample

def rule : AlertRule :=
  { id := 1, name := "stock", dataSourceId := 1, sqlText := "SELECT k FROM stock"
    cronExpression := "0 * * * *", recipients := "ops@example.com"
    subjectTemplate := "stock", bodyTemplate := "low stock"
    suppressDuplicates := true, suppressionKeyField := "k", createdAt := 0, updatedAt := 0 }

def db : Db :=
  { alertRules := [rule]
    sqlDataSources := [{ id := 1, name := "erp", host := "db", database := "erp"
                         username := "reader", encryptedPassword := "" }]
    smtpConfigs := [{ id := 1, host := "smtp", username := "ops", encryptedPassword := ""
                      sender := "ops@example.com", updatedAt := 0 }]
    leases := [], suppressions := [], executionLogs := [], mailLogs := [] }

def libs : Libraries :=
  { jinja := fun _ text _ => .ok text, validateSelectOnlySql := fun _ => .ok () }

/-- A row whose key is `k`. -/
def row (k : String) : Row := OrderedDict.empty.set "k" (.str k)

/-- The query answers with these rows and the server accepts every recipient. -/
def attempt (now : DateTime) (rows : List Row) : AttemptEnv :=
  { now
    buildSqlClient := fun _ => .ok fun _ _ _ => .ok { rows }
    buildSmtpMailer := fun _ => .ok (.smtp fun _ _ => .answers fun _ => true) }

/-- A run at the time `now`. -/
def env (now : DateTime) (rows : List Row) : RunEnv :=
  { fault := fun _ => none
    attempt := fun _ => attempt now rows
    ownerToken := "token", leaseSeconds := 3600
    acquiredAt := now, startedAt := now, finishedAt := now
    sleep := fun _ => none }

def request : RunRequest := { ruleId := 1 }

end Sample

end EarlyWarning
