/-
# `Session` — the database, one ORM session on it, and what may go wrong

A run of the program owns one session.  The session sees the database through its open
transaction (`work`) and holds objects it has not written yet (`pending`); a flush
writes them in the order they were added, a query flushes first, a commit makes `work`
the database and a rollback drops both.  After a commit or a rollback the attributes of
the loaded rule are expired: the next reader goes to the database.

Every database operation asks `RunEnv.fault` whether it raises, and whether the
statement had reached the database when it did.  A run is a function of its environment
`RunEnv`, so "an exception injected at any operation" is a quantifier over `fault`.
-/
import EarlyWarning.ExecutionLock
import EarlyWarning.ExecutionResult
import EarlyWarning.Lib.Wp

namespace EarlyWarning

open Lib

/-! ## The database -/

structure Db where
  alertRules : List AlertRule
  sqlDataSources : List SqlDataSource
  smtpConfigs : List SmtpConfig
  leases : LeaseTable
  suppressions : List AlertSuppression
  executionLogs : List ExecutionLog
  mailLogs : List MailLog
deriving DecidableEq

/-- The id SQLite gives to the next row of a table with these ids. -/
def nextId (ids : List Nat) : Nat := ids.foldl max 0 + 1

theorem foldl_max_le (ids : List Nat) : ∀ m : Nat, m ≤ ids.foldl max m ∧
    ∀ i ∈ ids, i ≤ ids.foldl max m := by
  induction ids with
  | nil => exact fun m => ⟨Nat.le_refl m, fun i h => by cases h⟩
  | cons a as ih =>
      intro m
      obtain ⟨hm, has⟩ := ih (max m a)
      refine ⟨Nat.le_trans (Nat.le_max_left m a) hm, fun i hi => ?_⟩
      obtain rfl | hi := List.mem_cons.mp hi
      · exact Nat.le_trans (Nat.le_max_right m i) hm
      · exact has i hi

theorem nextId_not_mem (ids : List Nat) : nextId ids ∉ ids := fun h =>
  Nat.lt_irrefl _ ((foldl_max_le ids 0).2 _ h)

/-- An object the session holds and has not written.  The rows of the two inserts that
carry one have the id `0` until the database gives them theirs. -/
inductive Pending
  | insertSuppression (row : AlertSuppression)
  | updateSuppression (id : Nat) (lastSeenAt : DateTime) (hitCount : Int)
  | insertExecutionLog (row : ExecutionLog)
  | insertMailLog (row : MailLog)
deriving DecidableEq

def Db.findSuppression (db : Db) (ruleId : Nat) (key : String) : Option AlertSuppression :=
  db.suppressions.find? fun s => s.ruleId = ruleId ∧ s.suppressionKey = key

/-- `uq_alertsuppression_rule_key` rejects the statement. -/
def Db.violatesUnique (db : Db) : Pending → Bool
  | .insertSuppression row => (db.findSuppression row.ruleId row.suppressionKey).isSome
  | _ => false

def Db.write (db : Db) : Pending → Db
  | .insertSuppression row =>
      { db with suppressions :=
          db.suppressions ++ [{ row with id := nextId (db.suppressions.map (·.id)) }] }
  | .updateSuppression id lastSeenAt hitCount =>
      { db with suppressions := db.suppressions.map fun s =>
          if s.id = id then { s with lastSeenAt, hitCount } else s }
  | .insertExecutionLog row =>
      { db with executionLogs :=
          db.executionLogs ++ [{ row with id := nextId (db.executionLogs.map (·.id)) }] }
  | .insertMailLog row =>
      { db with mailLogs := db.mailLogs ++ [{ row with id := nextId (db.mailLogs.map (·.id)) }] }

def Db.findRule (db : Db) (ruleId : Nat) : Option AlertRule :=
  db.alertRules.find? fun rule => rule.id = ruleId

theorem findRule_id {db : Db} {ruleId : Nat} {rule : AlertRule}
    (h : db.findRule ruleId = some rule) : rule.id = ruleId := by
  simpa using List.find?_some h

/-! ## The environment of a run -/

/-- A database operation raises; `applied` tells whether its effect took place. -/
structure Fault where
  exc : PyExc
  applied : Bool

/-- What one attempt meets. -/
structure AttemptEnv where
  /-- `utc_now()` in `_build_suppression_filter` -/
  now : DateTime
  buildSqlClient : SqlDataSource → Except PyExc SqlClient
  buildSmtpMailer : SmtpConfig → Except PyExc Mailer

structure RunEnv where
  /-- the outcome of the database operations, by their number in the run -/
  fault : Nat → Option Fault
  /-- what the attempts meet, by their number in the run -/
  attempt : Nat → AttemptEnv
  ownerToken : String
  leaseSeconds : Int
  acquiredAt : DateTime
  startedAt : DateTime
  finishedAt : DateTime
  /-- `sleep_fn` raises, by the number of the call -/
  sleep : Nat → Option PyExc

/-! ## The state of a run -/

structure Store where
  /-- the database file -/
  db : Db
  /-- what the open transaction of the session sees -/
  work : Db
  /-- objects added and not flushed, in order -/
  pending : List Pending
deriving DecidableEq

structure World where
  store : Store
  /-- database operations performed -/
  ops : Nat := 0
  /-- the loaded attributes of the rule; `none` when they are expired -/
  rule : Option AlertRule := none
  /-- the id of the execution log, once it has been flushed -/
  executionLogId : Nat := 0
  /-- the dictionary shared by the filter of the current attempt and its caller -/
  filterState : Option SuppressionState := none
  /-- the attempts, newest first -/
  attempts : List AttemptRecord := []
  /-- the arguments of the calls of `sleep_fn`, newest first -/
  sleeps : List Rat := []
deriving DecidableEq

/-- A new session on a database. -/
def World.start (db : Db) : World := { store := { db, work := db, pending := [] } }

abbrev Svc (α : Type) := Prog World PyExc α

/-! ## Operations -/

variable (env : RunEnv)

/-- A database operation with this effect. -/
def dbOp (effect : World → World) : Svc Unit := do
  let w ← get
  match env.fault w.ops with
  | none => set { effect w with ops := w.ops + 1 }
  | some fault =>
      set { (if fault.applied then effect w else w) with ops := w.ops + 1 }
      throw fault.exc

def World.write (w : World) (p : Pending) : World :=
  let executionLogId := match p with
    | .insertExecutionLog _ => nextId (w.store.work.executionLogs.map (·.id))
    | _ => w.executionLogId
  { w with store.work := w.store.work.write p, executionLogId }

def integrityError : PyExc :=
  ⟨.exception, "IntegrityError", "UNIQUE constraint failed", none, integrityError_typeName_ne,
    nofun⟩

/-- Write one pending object. -/
def flushOne (p : Pending) : Svc Unit := do
  let w ← get
  if w.store.work.violatesUnique p then
    throw integrityError
  dbOp env fun w => w.write p

def flushList : List Pending → Svc Unit
  | [] => pure ()
  | p :: rest => do
      flushOne env p
      modify fun w => { w with store.pending := rest }
      flushList rest

/-- `session.flush()` -/
def sessionFlush : Svc Unit := do
  let w ← get
  flushList env w.store.pending

/-- A statement on the session's connection, after the autoflush. -/
def sessionExecute (effect : World → World) : Svc Unit := do
  sessionFlush env
  dbOp env effect

/-- A `SELECT`, after the autoflush. -/
def sessionSelect : Svc Unit := sessionExecute env id

def sessionAdd (p : Pending) : Svc Unit :=
  modify fun w => { w with store.pending := w.store.pending ++ [p] }

def World.committed (w : World) : World :=
  { w with store.db := w.store.work, rule := none }

def World.rolledBack (w : World) : World :=
  { w with store.work := w.store.db, store.pending := [], rule := none }

/-- `session.commit()` -/
def sessionCommit : Svc Unit := do
  sessionFlush env
  dbOp env World.committed

/-- `session.rollback()` -/
def sessionRollback : Svc Unit := dbOp env World.rolledBack

/-! ## The loaded rule -/

def objectDeletedError : PyExc :=
  ⟨.exception, "ObjectDeletedError", "Instance has been deleted", none, by decide, nofun⟩

/-- `session.get(AlertRule, rule_id)` -/
def sessionGetRule (ruleId : Nat) : Svc (Option AlertRule) := do
  let w ← get
  match w.rule with
  | some rule => return some rule
  | none =>
      sessionSelect env
      let rule := w.store.work.findRule ruleId
      modify fun w => { w with rule }
      return rule

/-- An attribute of the rule is read: from the loaded object, or from the database when
a commit or a rollback has expired it. -/
def readRule (ruleId : Nat) : Svc AlertRule := do
  match ← sessionGetRule env ruleId with
  | some rule => return rule
  | none => throw objectDeletedError

/-! ## The record of the current attempt -/

def World.note (w : World) (f : AttemptRecord → AttemptRecord) : World :=
  { w with attempts := w.attempts.modifyHead f }

def noteAttempt (f : AttemptRecord → AttemptRecord) : Svc Unit :=
  modify fun w => w.note f

/-! ## What an operation can do

The rules are stated backwards: to know what follows a call, know it after each of its
outcomes. -/

section

variable {env} {w : World} {Q : Unit → World → Prop} {E : PyExc → World → Prop}

/-- A database operation takes effect, or raises with or without having taken effect. -/
theorem dbOp_wp {effect : World → World}
    (hok : Q () { effect w with ops := w.ops + 1 })
    (herr : ∀ e u, (u = w ∨ u = effect w) → E e { u with ops := w.ops + 1 }) :
    wp (dbOp env effect) Q E w := by
  unfold dbOp
  simp only [wp_bind, wp_get]
  cases env.fault w.ops with
  | none => simpa only [wp_set] using hok
  | some fault =>
      simp only [wp_bind, wp_set, wp_throw]
      refine herr fault.exc _ ?_
      by_cases h : fault.applied <;> simp [h]

theorem sessionFlush_wp_nil (hp : w.store.pending = []) (hok : Q () w) :
    wp (sessionFlush env) Q E w := by
  simpa only [sessionFlush, wp_bind, wp_get, hp, flushList, wp_pure] using hok

/-- With nothing pending, a query changes nothing but the number of operations. -/
theorem sessionSelect_wp (hp : w.store.pending = []) (hok : ∀ n, Q () { w with ops := n })
    (herr : ∀ e n, E e { w with ops := n }) : wp (sessionSelect env) Q E w := by
  unfold sessionSelect sessionExecute
  rw [wp_bind]
  refine sessionFlush_wp_nil hp (dbOp_wp (hok _) fun e u hu => ?_)
  obtain rfl | rfl := hu
  · exact herr e _
  · exact herr e _

/-- The loaded rule, if there is one, is the row of the database. -/
def World.RuleFresh (w : World) (ruleId : Nat) : Prop :=
  w.rule = none ∨ w.rule = w.store.work.findRule ruleId

theorem sessionGetRule_wp {ruleId : Nat} {Q : Option AlertRule → World → Prop}
    (hp : w.store.pending = []) (hf : w.RuleFresh ruleId)
    (hok : ∀ n, Q (w.store.work.findRule ruleId)
      { w with ops := n, rule := w.store.work.findRule ruleId })
    (herr : ∀ e n, E e { w with ops := n }) :
    wp (sessionGetRule env ruleId) Q E w := by
  unfold sessionGetRule
  simp only [wp_bind, wp_get]
  cases hr : w.rule with
  | some rule =>
      obtain hn | hs := hf
      · rw [hr] at hn
        cases hn
      · have h := hok w.ops
        rw [← hs, hr] at h
        rw [wp_pure]
        convert h using 1
        rw [← hr]
  | none =>
      rw [wp_bind]
      exact sessionSelect_wp hp (fun n => hok n) (fun e n => by simpa [hr] using herr e n)

/-- Reading an attribute of the rule: the row of the database, or an exception. -/
theorem readRule_wp {ruleId : Nat} {Q : AlertRule → World → Prop}
    (hp : w.store.pending = []) (hf : w.RuleFresh ruleId)
    (hok : ∀ n rule, w.store.work.findRule ruleId = some rule →
      Q rule { w with ops := n, rule := some rule })
    (herr : ∀ e n r, (r = none ∨ r = w.store.work.findRule ruleId) →
      E e { w with ops := n, rule := r }) :
    wp (readRule env ruleId) Q E w := by
  unfold readRule
  rw [wp_bind]
  refine sessionGetRule_wp hp hf (fun n => ?_) (fun e n => ?_)
  · cases hr : w.store.work.findRule ruleId with
    | some rule => simpa only [wp_pure] using hok n rule hr
    | none => simpa only [wp_throw] using herr _ n none (.inl rfl)
  · exact herr e n w.rule hf

end

end EarlyWarning
