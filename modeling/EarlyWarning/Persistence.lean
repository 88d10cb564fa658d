/-
# `Persistence` — what a run writes to the database

`persist_execution_result` adds objects to the session one after another; lookups flush
them, the last flush gives the execution log its id, and one commit writes them all.
`Db.storeResult` is the database this is meant to produce, as a function of the database
before.  `persistExecutionResult_wp` says that the database afterwards is this one or the
one before, whatever operation raises — and this one when the function returns.

The bridge is `Store.view`, the database as it would be if the session were flushed now:
a lookup flushes and reads it, an `add` extends it, a commit makes it the database.
-/
import EarlyWarning.Retry

namespace EarlyWarning

open Lib

/-! ## The database a result is meant to produce -/

/-- The record of a sighted key. -/
def Db.recordKey (db : Db) (ruleId : Nat) (now : DateTime) (key : String) : Db :=
  match db.findSuppression ruleId key with
  | none => db.write (.insertSuppression
      { id := 0, ruleId, suppressionKey := key, firstSeenAt := now, lastSeenAt := now
        hitCount := 1 })
  | some record => db.write (.updateSuppression record.id now (record.hitCount + 1))

def Db.recordKeys (db : Db) (ruleId : Nat) (now : DateTime) (keys : List String) : Db :=
  keys.foldl (fun db key => db.recordKey ruleId now key) db

/-- The suppression updates of an attempt. -/
def Db.storeSuppression (db : Db) (ruleId : Nat) (attempt : ExecutionAttempt) : Db :=
  match attempt.suppressionState with
  | some state =>
      if attempt.result.status = .success then
        db.recordKeys ruleId state.now (state.newKeys ++ state.suppressedKeys)
      else db
  | none => db

/-- The mail logs of an attempt. -/
def Db.storeMails (db : Db) (executionLogId : Nat) (mailResults : List ExecutionMailResult) : Db :=
  mailResults.foldl (fun db m => db.write (.insertMailLog (buildMailLog executionLogId m))) db

/-- The suppression updates, the execution log and the mail logs of an attempt. -/
def Db.storeResult (db : Db) (env : RunEnv) (ruleId : Nat) (triggerType : TriggerType)
    (attempt : ExecutionAttempt) : Db :=
  let updated := db.storeSuppression ruleId attempt
  let log := buildExecutionLog ruleId triggerType attempt.result env.startedAt env.finishedAt
  (updated.write (.insertExecutionLog log)).storeMails
    (nextId (updated.executionLogs.map (·.id))) attempt.result.mailResults

/-! What a stored result adds to each table. -/

section

variable (db : Db) (ruleId : Nat) (now : DateTime)

theorem Db.recordKey_logs (key : String) :
    (db.recordKey ruleId now key).executionLogs = db.executionLogs ∧
    (db.recordKey ruleId now key).mailLogs = db.mailLogs := by
  unfold Db.recordKey
  split <;> exact ⟨rfl, rfl⟩

theorem Db.recordKeys_logs (keys : List String) : ∀ db : Db,
    (db.recordKeys ruleId now keys).executionLogs = db.executionLogs ∧
    (db.recordKeys ruleId now keys).mailLogs = db.mailLogs := by
  induction keys with
  | nil =>
      intro db
      exact ⟨rfl, rfl⟩
  | cons key keys ih =>
      intro db
      obtain ⟨h1, h2⟩ := ih (db.recordKey ruleId now key)
      obtain ⟨h3, h4⟩ := db.recordKey_logs ruleId now key
      exact ⟨h1.trans h3, h2.trans h4⟩

theorem Db.storeSuppression_logs (attempt : ExecutionAttempt) :
    (db.storeSuppression ruleId attempt).executionLogs = db.executionLogs ∧
    (db.storeSuppression ruleId attempt).mailLogs = db.mailLogs := by
  unfold Db.storeSuppression
  split
  · split
    · exact Db.recordKeys_logs ruleId _ _ db
    · exact ⟨rfl, rfl⟩
  · exact ⟨rfl, rfl⟩

theorem Db.storeMails_executionLogs (executionLogId : Nat)
    (mailResults : List ExecutionMailResult) : ∀ db : Db,
    (db.storeMails executionLogId mailResults).executionLogs = db.executionLogs := by
  induction mailResults with
  | nil => exact fun _ => rfl
  | cons m ms ih => exact fun db => ih _

/-- The mail logs are those of the mail results, in order, under new ids. -/
theorem Db.storeMails_mailLogs (executionLogId : Nat) (mailResults : List ExecutionMailResult) :
    ∀ db : Db, ∃ mails, (db.storeMails executionLogId mailResults).mailLogs = db.mailLogs ++ mails ∧
      mails.map (fun m => { m with id := 0 }) = mailResults.map (buildMailLog executionLogId) := by
  induction mailResults with
  | nil => exact fun db => ⟨[], (List.append_nil _).symm, rfl⟩
  | cons mr mrs ih =>
      intro db
      obtain ⟨mails, hlogs, hmails⟩ := ih (db.write (.insertMailLog (buildMailLog executionLogId mr)))
      refine ⟨_ :: mails, hlogs.trans (List.append_assoc _ _ _), ?_⟩
      rw [List.map_cons, List.map_cons, hmails]
      rfl

/-- The execution log a stored result adds. -/
def Db.storedLog (db : Db) (env : RunEnv) (ruleId : Nat) (triggerType : TriggerType)
    (result : ExecutionResult) : ExecutionLog :=
  { buildExecutionLog ruleId triggerType result env.startedAt env.finishedAt with
    id := nextId (db.executionLogs.map (·.id)) }

/-- One execution log, and no other. -/
theorem Db.storeResult_executionLogs (env : RunEnv) (triggerType : TriggerType)
    (attempt : ExecutionAttempt) :
    (db.storeResult env ruleId triggerType attempt).executionLogs =
      db.executionLogs ++ [db.storedLog env ruleId triggerType attempt.result] := by
  unfold Db.storeResult
  rw [Db.storeMails_executionLogs, Db.write]
  simp only [(db.storeSuppression_logs ruleId attempt).1, Db.storedLog]

end

/-! ## The session's view -/

/-- The database as it would be after a flush. -/
def Store.view (s : Store) : Db := s.pending.foldl Db.write s.work

/-- The run after a flush. -/
def World.flushed (w : World) : World :=
  { w.store.pending.foldl World.write w with store.pending := [] }

/-- Nothing has been committed between `w` and `t`, and no attempt made. -/
structure World.Uncommitted (w t : World) : Prop where
  db : t.store.db = w.store.db
  attempts : t.attempts = w.attempts
  sleeps : t.sleeps = w.sleeps

theorem World.Uncommitted.refl (w : World) : w.Uncommitted w := ⟨rfl, rfl, rfl⟩

theorem World.Uncommitted.trans {u v w : World} (h : u.Uncommitted v) (h' : v.Uncommitted w) :
    u.Uncommitted w :=
  ⟨h'.db.trans h.db, h'.attempts.trans h.attempts, h'.sleeps.trans h.sleeps⟩

theorem foldl_write (ps : List Pending) : ∀ w : World,
    (ps.foldl World.write w).store =
      { w.store with work := ps.foldl Db.write w.store.work } ∧
    w.Uncommitted (ps.foldl World.write w) ∧
    (ps.foldl World.write w).rule = w.rule := by
  induction ps with
  | nil =>
      intro w
      exact ⟨rfl, .refl w, rfl⟩
  | cons p ps ih =>
      intro w
      obtain ⟨hs, hu, hr⟩ := ih (w.write p)
      exact ⟨hs, ⟨hu.db, hu.attempts, hu.sleeps⟩, hr⟩

/-- Writing does not look at what is pending, nor at the number of operations. -/
theorem foldl_write_with (n : Nat) (pending : List Pending) (ps : List Pending) : ∀ w : World,
    ps.foldl World.write { w with ops := n, store.pending := pending } =
      { ps.foldl World.write w with ops := n, store.pending := pending } := by
  induction ps with
  | nil =>
      intro w
      rfl
  | cons p ps ih => exact fun w => ih (w.write p)

theorem World.flushed_work (w : World) : w.flushed.store.work = w.store.view := by
  rw [World.flushed, (foldl_write w.store.pending w).1]
  rfl

theorem World.flushed_db (w : World) : w.flushed.store.db = w.store.db := by
  rw [World.flushed, (foldl_write w.store.pending w).1]

theorem World.flushed_uncommitted (w : World) : w.Uncommitted w.flushed :=
  ⟨w.flushed_db, (foldl_write w.store.pending w).2.1.attempts,
    (foldl_write w.store.pending w).2.1.sleeps⟩

variable {env : RunEnv} {w : World}

/-! ## Flushes, queries, commits -/

/-- One object is written, or the statement raises. -/
theorem flushOne_wp {p : Pending} {Q : Unit → World → Prop} {E : PyExc → World → Prop}
    (hok : Q () { w.write p with ops := w.ops + 1 })
    (herr : ∀ e t, w.Uncommitted t → E e t) : wp (flushOne env p) Q E w := by
  unfold flushOne
  rw [wp_bind, wp_get]
  by_cases hv : w.store.work.violatesUnique p = true
  · simp only [hv, if_true]
    exact herr _ w (.refl w)
  · simp only [hv]
    refine dbOp_wp hok fun e u hu => ?_
    obtain rfl | rfl := hu
    · exact herr e _ ⟨rfl, rfl, rfl⟩
    · exact herr e _ ⟨rfl, rfl, rfl⟩

theorem flushList_wp : ∀ {ps : List Pending} {w : World} {Q : Unit → World → Prop}
    {E : PyExc → World → Prop}, w.store.pending = ps →
    (∀ n, Q () { ps.foldl World.write w with ops := n, store.pending := [] }) →
    (∀ e t, w.Uncommitted t → E e t) → wp (flushList env ps) Q E w
  | [], w, Q, E, hp, hok, _ => by
      have hsame : ({ w with store.pending := [] } : World) = w := by
        rw [← hp]
      have h := hok w.ops
      rw [List.foldl_nil] at h
      exact hsame ▸ h
  | p :: ps, w, Q, E, _, hok, herr => by
      unfold flushList
      rw [wp_bind]
      refine flushOne_wp ?_ herr
      rw [wp_bind, wp_modify]
      refine flushList_wp rfl (fun n => ?_) fun e t ht => herr e t ⟨ht.db, ht.attempts, ht.sleeps⟩
      have hwrite := congrArg (fun u : World => Q () { u with ops := n, store.pending := [] })
        (foldl_write_with (w.ops + 1) ps ps (w.write p))
      exact Eq.mpr hwrite (hok n)

theorem sessionFlush_wp {Q : Unit → World → Prop} {E : PyExc → World → Prop}
    (hok : ∀ n, Q () { w.flushed with ops := n }) (herr : ∀ e t, w.Uncommitted t → E e t) :
    wp (sessionFlush env) Q E w := by
  unfold sessionFlush
  rw [wp_bind, wp_get]
  exact flushList_wp rfl hok herr

theorem sessionExecute_wp {effect : World → World} {Q : Unit → World → Prop}
    {E : PyExc → World → Prop}
    (hok : ∀ m n, Q () { effect { w.flushed with ops := m } with ops := n })
    (heffect : ∀ u : World, u.Uncommitted (effect u))
    (herr : ∀ e t, w.Uncommitted t → E e t) :
    wp (sessionExecute env effect) Q E w := by
  unfold sessionExecute
  rw [wp_bind]
  refine sessionFlush_wp (fun m => ?_) herr
  refine dbOp_wp (hok m _) fun e u hu => ?_
  have hflushed := w.flushed_uncommitted
  obtain rfl | rfl := hu
  · exact herr e _ ⟨hflushed.db, hflushed.attempts, hflushed.sleeps⟩
  · have h := heffect { w.flushed with ops := m }
    exact herr e _ ⟨h.db.trans hflushed.db, h.attempts.trans hflushed.attempts,
      h.sleeps.trans hflushed.sleeps⟩

/-- A query sees the session's view. -/
theorem sessionSelect_wp_view {Q : Unit → World → Prop} {E : PyExc → World → Prop}
    (hok : ∀ n, Q () { w.flushed with ops := n }) (herr : ∀ e t, w.Uncommitted t → E e t) :
    wp (sessionSelect env) Q E w :=
  sessionExecute_wp (fun _ n => hok n) .refl herr

/-- A commit makes the session's view the database, also when it raises too late. -/
theorem sessionCommit_wp {Q : Unit → World → Prop} {E : PyExc → World → Prop}
    (hok : ∀ n, Q () { w.flushed.committed with ops := n })
    (hlate : ∀ e n, E e { w.flushed.committed with ops := n })
    (herr : ∀ e t, w.Uncommitted t → E e t) : wp (sessionCommit env) Q E w := by
  unfold sessionCommit
  rw [wp_bind]
  refine sessionFlush_wp (fun m => ?_) herr
  refine dbOp_wp (hok _) fun e u hu => ?_
  have hflushed := w.flushed_uncommitted
  obtain rfl | rfl := hu
  · exact herr e _ ⟨hflushed.db, hflushed.attempts, hflushed.sleeps⟩
  · exact hlate e _

theorem sessionRollback_wp {Q : Unit → World → Prop} {E : PyExc → World → Prop}
    (hok : ∀ n, Q () { w.rolledBack with ops := n }) (herr : ∀ e t, w.Uncommitted t → E e t) :
    wp (sessionRollback env) Q E w := by
  refine dbOp_wp (hok _) fun e u hu => ?_
  obtain rfl | rfl := hu
  · exact herr e _ ⟨rfl, rfl, rfl⟩
  · exact herr e _ ⟨rfl, rfl, rfl⟩

/-! ## Writing a result -/

theorem World.flushed_view (w : World) : w.flushed.store.view = w.store.view := by
  have hp : w.flushed.store.pending = [] := rfl
  rw [Store.view, hp, List.foldl_nil, w.flushed_work]

/-- Adding an object extends the view. -/
theorem sessionAdd_wp {p : Pending} {Q : Unit → World → Prop} {E : PyExc → World → Prop}
    (h : ∀ t, w.Uncommitted t → t.store.view = w.store.view.write p → Q () t) :
    wp (sessionAdd p) Q E w := by
  refine h _ ⟨rfl, rfl, rfl⟩ ?_
  simp [Store.view]

theorem persistSuppressionKey_wp {ruleId : Nat} {now : DateTime} {key : String}
    {Q : Unit → World → Prop} {E : PyExc → World → Prop}
    (hok : ∀ t, w.Uncommitted t → t.store.view = w.store.view.recordKey ruleId now key → Q () t)
    (herr : ∀ e t, w.Uncommitted t → E e t) :
    wp (persistSuppressionKey env ruleId now key) Q E w := by
  unfold persistSuppressionKey getSuppressionRecord
  rw [wp_bind, wp_bind]
  refine sessionSelect_wp_view (fun n => ?_) herr
  rw [wp_bind, wp_get, wp_pure]
  have hwork : ({ w.flushed with ops := n } : World).store.work = w.store.view := w.flushed_work
  have hview : ({ w.flushed with ops := n } : World).store.view = w.store.view := w.flushed_view
  have hsame : w.Uncommitted { w.flushed with ops := n } :=
    ⟨w.flushed_db, w.flushed_uncommitted.attempts, w.flushed_uncommitted.sleeps⟩
  rw [hwork]
  cases hfind : w.store.view.findSuppression ruleId key with
  | none =>
      refine sessionAdd_wp fun t ht htview => hok t (hsame.trans ht) ?_
      rw [htview, hview, Db.recordKey, hfind]
  | some record =>
      refine sessionAdd_wp fun t ht htview => hok t (hsame.trans ht) ?_
      rw [htview, hview, Db.recordKey, hfind]

theorem persistSuppressionKeys_wp {ruleId : Nat} {now : DateTime} :
    ∀ {keys : List String} {w : World} {Q : Unit → World → Prop} {E : PyExc → World → Prop},
    (∀ t, w.Uncommitted t → t.store.view = w.store.view.recordKeys ruleId now keys → Q () t) →
    (∀ e t, w.Uncommitted t → E e t) →
    wp (keys.forM (persistSuppressionKey env ruleId now)) Q E w
  | [], w, Q, E, hok, _ => hok w (.refl w) rfl
  | key :: keys, w, Q, E, hok, herr => by
      show wp (persistSuppressionKey env ruleId now key >>= fun _ =>
        keys.forM (persistSuppressionKey env ruleId now)) Q E w
      rw [wp_bind]
      refine persistSuppressionKey_wp (fun u hu huview => ?_) herr
      refine persistSuppressionKeys_wp (fun t ht htview => hok t (hu.trans ht) ?_)
        fun e t ht => herr e t (hu.trans ht)
      rw [htview, huview]
      rfl

/-- Between `w` and `t` the database has become `db`, and no attempt was made. -/
structure World.Commits (w t : World) (db : Db) : Prop where
  db : t.store.db = db
  attempts : t.attempts = w.attempts
  sleeps : t.sleeps = w.sleeps

theorem persistMailLogs_wp {executionLogId : Nat} :
    ∀ {mailResults : List ExecutionMailResult} {w : World} {Q : Unit → World → Prop}
    {E : PyExc → World → Prop},
    (∀ t, w.Uncommitted t →
      t.store.view = w.store.view.storeMails executionLogId mailResults → Q () t) →
    wp (mailResults.forM fun m => sessionAdd (.insertMailLog (buildMailLog executionLogId m)))
      Q E w
  | [], w, Q, E, hok => hok w (.refl w) rfl
  | m :: ms, w, Q, E, hok => by
      show wp (sessionAdd (.insertMailLog (buildMailLog executionLogId m)) >>= fun _ =>
        ms.forM fun m => sessionAdd (.insertMailLog (buildMailLog executionLogId m))) Q E w
      rw [wp_bind]
      refine sessionAdd_wp fun u hu huview => ?_
      refine persistMailLogs_wp fun t ht htview => hok t (hu.trans ht) ?_
      rw [htview, huview]
      rfl

/-- A flush gives the execution log that was added last its id. -/
theorem World.flushed_executionLogId (w : World) (log : ExecutionLog) :
    ({ w with store.pending := w.store.pending ++ [.insertExecutionLog log] } :
      World).flushed.executionLogId = nextId (w.store.view.executionLogs.map (·.id)) := by
  rw [World.flushed, List.foldl_append]
  show nextId ((w.store.pending.foldl World.write _).store.work.executionLogs.map (·.id)) = _
  rw [(foldl_write w.store.pending _).1]
  rfl

theorem updateSuppression_wp {ruleId : Nat} {attempt : ExecutionAttempt}
    {Q : Unit → World → Prop} {E : PyExc → World → Prop}
    (hok : ∀ t, w.Uncommitted t →
      t.store.view = w.store.view.storeSuppression ruleId attempt → Q () t)
    (herr : ∀ e t, w.Uncommitted t → E e t) :
    wp (updateSuppression env ruleId attempt) Q E w := by
  unfold updateSuppression
  unfold Db.storeSuppression at hok
  split
  · rename_i state hstate
    simp only [hstate] at hok
    split
    · rename_i hstatus
      simp only [hstatus, if_true] at hok
      exact persistSuppressionKeys_wp hok herr
    · rename_i hstatus
      simp only [hstatus, if_false] at hok
      exact hok w (.refl w) rfl
  · rename_i hstate
    simp only [hstate] at hok
    exact hok w (.refl w) rfl

theorem writeLogs_wp {log : ExecutionLog} {mailResults : List ExecutionMailResult}
    {Q : ExecutionLog → World → Prop} {E : PyExc → World → Prop}
    (hok : ∀ t, w.Commits t ((w.store.view.write (.insertExecutionLog log)).storeMails
        (nextId (w.store.view.executionLogs.map (·.id))) mailResults) →
      Q { log with id := nextId (w.store.view.executionLogs.map (·.id)) } t)
    (herr : ∀ e t, w.Uncommitted t → E e t)
    (hlate : ∀ e t, w.Commits t ((w.store.view.write (.insertExecutionLog log)).storeMails
        (nextId (w.store.view.executionLogs.map (·.id))) mailResults) → E e t) :
    wp (writeLogs env log mailResults) Q E w := by
  unfold writeLogs sessionAdd
  rw [wp_bind, wp_modify, wp_bind]
  generalize hu : ({ w with store.pending := w.store.pending ++ [.insertExecutionLog log] } :
    World) = u
  have hwu : w.Uncommitted u := hu ▸ ⟨rfl, rfl, rfl⟩
  have huview : u.store.view = w.store.view.write (.insertExecutionLog log) := by
    rw [← hu]
    simp [Store.view]
  have huid : u.flushed.executionLogId = nextId (w.store.view.executionLogs.map (·.id)) :=
    hu ▸ w.flushed_executionLogId log
  refine sessionFlush_wp (fun n => ?_) fun e t ht => herr e t (hwu.trans ht)
  rw [wp_bind, wp_get, wp_bind]
  refine persistMailLogs_wp fun v hv hvview => ?_
  have huv : u.Uncommitted v := u.flushed_uncommitted.trans ⟨hv.db, hv.attempts, hv.sleeps⟩
  have hwv : w.Uncommitted v := hwu.trans huv
  have hdb : v.store.view = (w.store.view.write (.insertExecutionLog log)).storeMails
      (nextId (w.store.view.executionLogs.map (·.id))) mailResults := by
    rw [hvview, ← huid, ← huview, ← u.flushed_view]
  have hcommits : ∀ n, w.Commits { v.flushed.committed with ops := n }
      ((w.store.view.write (.insertExecutionLog log)).storeMails
        (nextId (w.store.view.executionLogs.map (·.id))) mailResults) := fun n =>
    ⟨v.flushed_work.trans hdb, v.flushed_uncommitted.attempts.trans hwv.attempts,
      v.flushed_uncommitted.sleeps.trans hwv.sleeps⟩
  rw [wp_bind]
  refine sessionCommit_wp (fun n => ?_) (fun e n => hlate e _ (hcommits n))
    fun e t ht => herr e t (hwv.trans ht)
  rw [wp_bind]
  refine sessionSelect_wp rfl (fun m => ?_) fun e m => hlate e _ (hcommits m)
  rw [wp_pure]
  show Q { log with id := u.flushed.executionLogId } _
  rw [huid]
  exact hok _ (hcommits m)

/-- The session holds nothing to write, and a rule it has loaded is this one, perhaps as it
once was. -/
structure World.Knows (w : World) (ruleId : Nat) : Prop where
  pending : w.store.pending = []
  loaded : ∀ rule, w.rule = some rule → rule.id = ruleId

theorem World.Ready.knows {ruleId : Nat} {rule : AlertRule} (h : w.Ready ruleId rule) :
    w.Knows ruleId := by
  refine ⟨h.pending, fun loaded hloaded => ?_⟩
  obtain hnone | hsome := h.fresh
  · rw [hnone] at hloaded
    cases hloaded
  · rw [hsome] at hloaded
    cases hloaded
    exact findRule_id h.found

/-- Whatever is read of the rule has its id. -/
theorem World.Knows.readRule_wp {ruleId : Nat} {Q : AlertRule → World → Prop}
    {E : PyExc → World → Prop} (h : w.Knows ruleId)
    (hok : ∀ n rule, rule.id = ruleId → Q rule { w with ops := n, rule := some rule })
    (herr : ∀ e n r, E e { w with ops := n, rule := r }) :
    wp (readRule env ruleId) Q E w := by
  unfold readRule sessionGetRule
  rw [wp_bind, wp_bind, wp_get]
  cases hrule : w.rule with
  | some rule =>
      have hread := hok w.ops rule (h.loaded rule hrule)
      rw [← hrule] at hread
      exact hread
  | none =>
      rw [wp_bind]
      refine sessionSelect_wp h.pending (fun n => ?_) fun e n => herr e n w.rule
      rw [wp_bind, wp_modify, wp_pure]
      cases hfound : w.store.work.findRule ruleId with
      | some rule => exact hok n rule (findRule_id hfound)
      | none => exact herr _ n none

/-- The `try` block of `persist_execution_result`. -/
theorem writeExecutionResult_wp {ruleId : Nat} {triggerType : TriggerType}
    {attempt : ExecutionAttempt} {Q : ExecutionLog → World → Prop} {E : PyExc → World → Prop}
    (hw : w.Knows ruleId)
    (hok : ∀ t, w.Commits t (w.store.work.storeResult env ruleId triggerType attempt) →
      Q (w.store.work.storedLog env ruleId triggerType attempt.result) t)
    (herr : ∀ e t, w.Uncommitted t → E e t)
    (hlate : ∀ e t, w.Commits t (w.store.work.storeResult env ruleId triggerType attempt) →
      E e t) :
    wp (writeExecutionResult env ruleId triggerType attempt) Q E w := by
  have hview : w.store.view = w.store.work := by
    rw [Store.view, hw.pending, List.foldl_nil]
  unfold writeExecutionResult
  rw [wp_bind]
  refine hw.readRule_wp (fun n rule hid => ?_) fun e n r => herr e _ ⟨rfl, rfl, rfl⟩
  rw [hid, wp_bind]
  refine updateSuppression_wp (fun u hu huview => ?_)
    fun e t ht => herr e t ⟨ht.db, ht.attempts, ht.sleeps⟩
  have huview : u.store.view = w.store.work.storeSuppression ruleId attempt := by
    rw [huview, ← hview]
  refine writeLogs_wp (fun t ht => ?_) (fun e t ht => herr e t ?_) fun e t ht => hlate e t ?_
  · have h := hok t ⟨?_, ht.attempts.trans hu.attempts, ht.sleeps.trans hu.sleeps⟩
    · rw [Db.storedLog, ← (w.store.work.storeSuppression_logs ruleId attempt).1, ← huview] at h
      exact h
    · rw [ht.db, huview]
      rfl
  · exact ⟨ht.db.trans hu.db, ht.attempts.trans hu.attempts, ht.sleeps.trans hu.sleeps⟩
  · refine ⟨?_, ht.attempts.trans hu.attempts, ht.sleeps.trans hu.sleeps⟩
    rw [ht.db, huview]
    rfl

/-- A handler that rolls back and raises leaves the database alone. -/
theorem rollbackAndRaise_wp {α : Type} {exc : PyExc} {Q : α → World → Prop}
    {E : PyExc → World → Prop} (h : ∀ e t, w.Uncommitted t → E e t) :
    wp (rollbackAndRaise env exc) Q E w := by
  unfold rollbackAndRaise
  by_cases he : exc.isException = true
  · simp only [he, if_true, wp_bind]
    exact sessionRollback_wp (fun n => h exc _ ⟨rfl, rfl, rfl⟩) h
  · simp only [he]
    exact h exc w (.refl w)

/-- **`persist_execution_result`**: the database afterwards is the one before or the one
with the whole result, and the latter when the function returns. -/
theorem persistExecutionResult_wp {ruleId : Nat} {triggerType : TriggerType}
    {attempt : ExecutionAttempt} {Q : ExecutionLog → World → Prop} {E : PyExc → World → Prop}
    (hw : w.Knows ruleId)
    (hok : ∀ t, w.Commits t (w.store.work.storeResult env ruleId triggerType attempt) →
      Q (w.store.work.storedLog env ruleId triggerType attempt.result) t)
    (herr : ∀ e t, w.Uncommitted t → E e t)
    (hlate : ∀ e t, w.Commits t (w.store.work.storeResult env ruleId triggerType attempt) →
      E e t) :
    wp (persistExecutionResult env ruleId triggerType attempt) Q E w := by
  unfold persistExecutionResult
  rw [wp_tryCatch]
  refine writeExecutionResult_wp hw hok (fun e u hu => ?_) fun e u hu => ?_
  · exact rollbackAndRaise_wp fun e t ht => herr e t (hu.trans ht)
  · exact rollbackAndRaise_wp fun e t ht => hlate e t
      ⟨ht.db.trans hu.db, ht.attempts.trans hu.attempts, ht.sleeps.trans hu.sleeps⟩

end EarlyWarning
