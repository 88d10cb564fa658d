/-
# `Archiving` — archiving a rule while it is being run

Any number of executions of `execute_rule_by_id` and of calls of `archive_rule`, on one
database.  An execution loads its rule and checks that it is not archived; takes the lease;
makes its attempts; persists their result; gives the lease back.  Each of these is one step
here, and so are the two of `archive_rule`; between two steps anything may happen.

An execution of a rule that has been archived should do nothing (`ArchivedNeverRuns`).  It
does nothing when it has not loaded the rule yet, but the check is not repeated once the
lease has been taken: an execution that has loaded the rule and then waits for its lease
runs although the rule has been archived meanwhile (`archived_rule_runs`).  In the runs
where no rule is archived while an execution of it stands between the two, the statement
holds (`archived_never_runs`).
-/
import EarlyWarning.RuleRun
import EarlyWarning.Lib.Run
import Mathlib.Logic.Function.Basic

namespace EarlyWarning

open Lib

/-! ## Rules in the database -/

/-- `archive_rule` sets three columns of the row. -/
def Db.archiveRule (db : Db) (ruleId : Nat) (now : DateTime) : Db :=
  { db with alertRules := db.alertRules.map fun rule =>
      if rule.id = ruleId then
        { rule with enabled := false, archivedAt := some now, updatedAt := now }
      else rule }

/-- The row is there. -/
def Db.HasRule (db : Db) (ruleId : Nat) : Prop := ∃ rule, db.findRule ruleId = some rule

/-- The row is there, and `archived_at` is set. -/
def Db.Archived (db : Db) (ruleId : Nat) : Prop :=
  ∃ rule, db.findRule ruleId = some rule ∧ rule.archivedAt.isSome = true

section

variable {db db' : Db} {ruleId : Nat} {now : DateTime}

theorem findRule_congr (h : db'.alertRules = db.alertRules) (ruleId : Nat) :
    db'.findRule ruleId = db.findRule ruleId := by
  rw [Db.findRule, h, Db.findRule]

theorem Db.HasRule.congr (h : db.HasRule ruleId) (hsame : db'.alertRules = db.alertRules) :
    db'.HasRule ruleId := by
  rwa [Db.HasRule, findRule_congr hsame]

theorem Db.Archived.congr (h : db.Archived ruleId) (hsame : db'.alertRules = db.alertRules) :
    db'.Archived ruleId := by
  rwa [Db.Archived, findRule_congr hsame]

/-- The row of a rule after another, or the same, has been archived. -/
theorem findRule_archiveRule (archivedId : Nat) :
    (db.archiveRule archivedId now).findRule ruleId =
      (db.findRule ruleId).map fun rule =>
        if rule.id = archivedId then
          { rule with enabled := false, archivedAt := some now, updatedAt := now }
        else rule := by
  simp only [Db.findRule, Db.archiveRule, List.find?_map]
  congr 2
  funext rule
  by_cases h : rule.id = archivedId <;> simp [h]

theorem Db.HasRule.archiveRule (h : db.HasRule ruleId) (archivedId : Nat) :
    (db.archiveRule archivedId now).HasRule ruleId := by
  obtain ⟨rule, hrule⟩ := h
  exact ⟨_, by rw [findRule_archiveRule, hrule]; rfl⟩

theorem Db.Archived.archiveRule (h : db.Archived ruleId) (archivedId : Nat) :
    (db.archiveRule archivedId now).Archived ruleId := by
  obtain ⟨rule, hrule, harch⟩ := h
  refine ⟨_, by rw [findRule_archiveRule, hrule]; rfl, ?_⟩
  by_cases hid : rule.id = archivedId
  · simp [hid]
  · simpa [hid] using harch

/-- Archiving a rule archives it. -/
theorem Db.archived_archiveRule (h : db.HasRule ruleId) :
    (db.archiveRule ruleId now).Archived ruleId := by
  obtain ⟨rule, hrule⟩ := h
  refine ⟨_, by rw [findRule_archiveRule, hrule]; rfl, ?_⟩
  simp [findRule_id hrule]

/-- Archiving a rule leaves the others alone. -/
theorem Db.archived_of_archiveRule {archivedId : Nat} (hne : ruleId ≠ archivedId)
    (h : (db.archiveRule archivedId now).Archived ruleId) : db.Archived ruleId := by
  obtain ⟨rule, hrule, harch⟩ := h
  rw [findRule_archiveRule] at hrule
  obtain ⟨old, hold, rfl⟩ := Option.map_eq_some_iff.mp hrule
  rw [if_neg (findRule_id hold ▸ hne)] at harch
  exact ⟨old, hold, harch⟩

/-! What an execution writes is in other tables. -/

theorem Db.write_alertRules (p : Pending) : (db.write p).alertRules = db.alertRules := by
  cases p <;> rfl

theorem Db.recordKeys_alertRules (keys : List String) : ∀ db : Db,
    (db.recordKeys ruleId now keys).alertRules = db.alertRules := by
  induction keys with
  | nil => exact fun _ => rfl
  | cons key keys ih =>
      intro db
      show ((db.recordKey ruleId now key).recordKeys ruleId now keys).alertRules = _
      rw [ih, Db.recordKey]
      split <;> exact Db.write_alertRules _

theorem Db.storeMails_alertRules (executionLogId : Nat) (mailResults : List ExecutionMailResult) :
    ∀ db : Db, (db.storeMails executionLogId mailResults).alertRules = db.alertRules := by
  induction mailResults with
  | nil => exact fun _ => rfl
  | cons m ms ih => exact fun db => ih _

theorem Db.storeResult_alertRules (env : RunEnv) (triggerType : TriggerType)
    (attempt : ExecutionAttempt) :
    (db.storeResult env ruleId triggerType attempt).alertRules = db.alertRules := by
  unfold Db.storeResult
  rw [Db.storeMails_alertRules, Db.write_alertRules, Db.storeSuppression]
  split
  · split
    · exact Db.recordKeys_alertRules _ db
    · rfl
  · rfl

end

/-! ## The system -/

/-- The session as its next statement finds it: the database as it is now, and the objects
it has loaded as they were. -/
def World.seeing (w : World) (db : Db) : World :=
  { w with store.db := db, store.work := db }

namespace Archiving

/-- A call of `execute_rule_by_id`. -/
structure Execution where
  request : RunRequest
  env : RunEnv

/-- A call of `archive_rule`. -/
structure ArchiveRequest where
  ruleId : Nat
  now : DateTime

inductive Phase
  | start
  /-- the rule has been loaded and is not archived -/
  | loaded
  /-- there is no such rule, or the lease was not to be had -/
  | refused
  /-- the lease has been committed -/
  | leased
  | attempted (attempt : ExecutionAttempt) (attemptsUsed : Nat)
  /-- the body has returned or raised -/
  | ended
  | released
deriving DecidableEq

inductive ArchivePhase
  | start
  | loaded
  /-- there is no such rule, or it is archived already -/
  | notFound
  | committed
deriving DecidableEq

structure State (ι κ : Type) where
  db : Db
  phase : ι → Phase
  /-- the session of each execution, with what it has done so far -/
  world : ι → World
  /-- the execution logs that each execution has stored -/
  logs : ι → List ExecutionLog
  archive : κ → ArchivePhase

inductive Label (ι κ : Type)
  | load (i : ι)
  | acquire (i : ι)
  | attempts (i : ι)
  | persist (i : ι)
  | release (i : ι)
  | archiveLoad (k : κ)
  | archiveCommit (k : κ)

variable {ι κ : Type} [DecidableEq ι] [DecidableEq κ]
  (libs : Libraries) (ex : ι → Execution) (ar : κ → ArchiveRequest)

/-- A step of an execution has left its session in the state `w`. -/
def State.moved (s : State ι κ) (i : ι) (phase : Phase) (w : World) : State ι κ where
  db := w.store.db
  phase := Function.update s.phase i phase
  world := Function.update s.world i w
  logs := Function.update s.logs i
    (s.logs i ++ w.store.db.executionLogs.drop s.db.executionLogs.length)
  archive := s.archive

def State.setArchive (s : State ι κ) (k : κ) (phase : ArchivePhase) : State ι κ :=
  { s with archive := Function.update s.archive k phase }

/-- Run this part of an execution. -/
def State.exec {α : Type} (s : State ι κ) (i : ι) (part : Svc α) : Except PyExc α × World :=
  Lib.exec part ((s.world i).seeing s.db)

def loadPart (e : Execution) : Svc Unit := loadActiveRule e.env e.request.ruleId

def acquirePart (e : Execution) : Svc Unit := enterLease e.env e.request.ruleId

def attemptsPart (e : Execution) : Svc (ExecutionAttempt × Nat) :=
  attemptLoop libs e.env e.request.ruleId e.request.retryDelaySeconds 1
    (totalAttempts e.request.maxAttempts)

def persistPart (e : Execution) (attempt : ExecutionAttempt) (attemptsUsed : Nat) :
    Svc ExecutionLog :=
  persistExecutionResult e.env e.request.ruleId e.request.triggerType
    (reported attempt attemptsUsed)

def releasePart (e : Execution) : Svc Unit := releaseRuleExecutionLease e.env e.request.ruleId

/-- An execution is these parts, one after another. -/
theorem executeRuleById_parts (e : Execution) :
    executeRuleById libs e.env e.request = (do
      loadPart e
      acquirePart e
      let log ← tryCatch (do
          let (attempt, attemptsUsed) ← attemptsPart libs e
          persistPart e attempt attemptsUsed)
        (releaseAndRaise e.env e.request.ruleId)
      releasePart e
      return log) := rfl

/-- The phase after a part that must succeed to go on. -/
def phaseAfter {α : Type} (next : α → Phase) (otherwise : Phase) : Except PyExc α → Phase
  | .ok a => next a
  | .error _ => otherwise

def step (s : State ι κ) : Label ι κ → Option (State ι κ)
  | .load i =>
      match s.phase i with
      | .start =>
          let (out, w) := s.exec i (loadPart (ex i))
          some (s.moved i (phaseAfter (fun _ => .loaded) .refused out) w)
      | _ => none
  | .acquire i =>
      match s.phase i with
      | .loaded =>
          let (out, w) := s.exec i (acquirePart (ex i))
          some (s.moved i (phaseAfter (fun _ => .leased) .refused out) w)
      | _ => none
  | .attempts i =>
      match s.phase i with
      | .leased =>
          let (out, w) := s.exec i (attemptsPart libs (ex i))
          some (s.moved i (phaseAfter (fun r => .attempted r.1 r.2) .ended out) w)
      | _ => none
  | .persist i =>
      match s.phase i with
      | .attempted attempt attemptsUsed =>
          some (s.moved i .ended (s.exec i (persistPart (ex i) attempt attemptsUsed)).2)
      | _ => none
  | .release i =>
      match s.phase i with
      | .ended => some (s.moved i .released (s.exec i (releasePart (ex i))).2)
      | _ => none
  | .archiveLoad k =>
      match s.archive k with
      | .start =>
          match s.db.findRule (ar k).ruleId with
          | some rule =>
              some (s.setArchive k (if rule.archivedAt.isSome then .notFound else .loaded))
          | none => some (s.setArchive k .notFound)
      | _ => none
  | .archiveCommit k =>
      match s.archive k with
      | .loaded =>
          some { s.setArchive k .committed with
                 db := s.db.archiveRule (ar k).ruleId (ar k).now }
      | _ => none

/-- Nobody has started. -/
structure Initial (s : State ι κ) : Prop where
  phase : ∀ i, s.phase i = .start
  world : ∀ i, s.world i = World.start s.db
  logs : ∀ i, s.logs i = []
  archive : ∀ k, s.archive k = .start

/-! ## What an execution knows

What holds of a session in each phase.  Of the database it needs only that the rule is
there, and rules are never deleted. -/

def SessionOk (db : Db) (ruleId : Nat) (logs : List ExecutionLog) (w : World) : Phase → Prop
  | .start => w.store.pending = [] ∧ w.rule = none ∧ w.attempts = [] ∧ logs = []
  | .loaded => w.store.pending = [] ∧ w.attempts = [] ∧ logs = [] ∧ db.HasRule ruleId
  | .refused => w.attempts = [] ∧ logs = []
  | .leased => w.store.pending = [] ∧ w.rule = none ∧ db.HasRule ruleId
  | .attempted _ _ => w.Knows ruleId
  | .ended | .released => True

def ArchiveOk (db : Db) (ruleId : Nat) : ArchivePhase → Prop
  | .loaded => db.HasRule ruleId
  | .committed => db.Archived ruleId
  | .start | .notFound => True

structure SystemInv (s : State ι κ) : Prop where
  sessions : ∀ i, SessionOk s.db (ex i).request.ruleId (s.logs i) (s.world i) (s.phase i)
  archives : ∀ k, ArchiveOk s.db (ar k).ruleId (s.archive k)

omit [DecidableEq ι] [DecidableEq κ] in
theorem Initial.systemInv {s : State ι κ} (h : Initial s) : SystemInv ex ar s where
  sessions := fun i => by
    rw [h.phase, h.world, h.logs]
    exact ⟨rfl, rfl, rfl, rfl⟩
  archives := fun k => by
    rw [h.archive]
    trivial

section

variable {db db' : Db} {ruleId : Nat} {logs : List ExecutionLog} {w : World}

theorem SessionOk.mono {phase : Phase} (h : SessionOk db ruleId logs w phase)
    (hkeep : db.HasRule ruleId → db'.HasRule ruleId) : SessionOk db' ruleId logs w phase := by
  cases phase with
  | loaded =>
      obtain ⟨hp, ha, hl, hrule⟩ := h
      exact ⟨hp, ha, hl, hkeep hrule⟩
  | leased =>
      obtain ⟨hp, hr, hrule⟩ := h
      exact ⟨hp, hr, hkeep hrule⟩
  | start => exact h
  | refused => exact h
  | attempted attempt attemptsUsed => exact h
  | ended => trivial
  | released => trivial

theorem ArchiveOk.mono {phase : ArchivePhase} (h : ArchiveOk db ruleId phase)
    (hkeep : db.HasRule ruleId → db'.HasRule ruleId)
    (harch : db.Archived ruleId → db'.Archived ruleId) : ArchiveOk db' ruleId phase := by
  cases phase with
  | loaded => exact hkeep h
  | committed => exact harch h
  | start => trivial
  | notFound => trivial

end

/-! ## What a step can do -/

/-- What a step of the execution `i` does when it leaves its session in the state `w`. -/
structure Moves (s : State ι κ) (i : ι) (phase : Phase) (w : World) : Prop where
  rules : w.store.db.alertRules = s.db.alertRules
  session : SessionOk w.store.db (ex i).request.ruleId
    (s.logs i ++ w.store.db.executionLogs.drop s.db.executionLogs.length) w phase
  /-- only an execution that has not started loads its rule, and only one not archived -/
  loads : phase = .loaded → s.phase i = .start ∧ ¬ s.db.Archived (ex i).request.ruleId
  /-- the first step loads the rule or is refused -/
  starts : s.phase i = .start → phase = .loaded ∨ phase = .refused
  running : s.phase i ≠ .refused

variable {libs ex ar}

/-- A part that leaves the execution logs alone adds none. -/
theorem drop_same {w : World} {db : Db} (h : w.store.db.executionLogs = db.executionLogs) :
    w.store.db.executionLogs.drop db.executionLogs.length = [] := by
  rw [h]
  exact List.drop_length

section

variable {s : State ι κ} {i : ι}

omit [DecidableEq ι] [DecidableEq κ] in
theorem exec_moves {α : Type} {part : Svc α} {next : α → Phase} {otherwise : Phase}
    (h : wp part (fun a w => Moves ex s i (next a) w) (fun _ w => Moves ex s i otherwise w)
      ((s.world i).seeing s.db)) :
    Moves ex s i (phaseAfter next otherwise (s.exec i part).1) (s.exec i part).2 :=
  wp_exec (R := fun out w => Moves ex s i (phaseAfter next otherwise out) w).mp h

omit [DecidableEq ι] [DecidableEq κ] in
/-- A step that neither starts an execution nor loads its rule. -/
theorem Moves.onward {phase : Phase} {w : World} (hs : s.phase i ≠ .start)
    (hrunning : s.phase i ≠ .refused) (hphase : phase ≠ .loaded)
    (hrules : w.store.db.alertRules = s.db.alertRules)
    (hsession : SessionOk w.store.db (ex i).request.ruleId
      (s.logs i ++ w.store.db.executionLogs.drop s.db.executionLogs.length) w phase) :
    Moves ex s i phase w :=
  ⟨hrules, hsession, fun h => absurd h hphase, fun h => absurd h hs, hrunning⟩

omit [DecidableEq ι] [DecidableEq κ] in
theorem load_moves (hs : s.phase i = .start)
    (hok : SessionOk s.db (ex i).request.ruleId (s.logs i) (s.world i) .start) :
    Moves ex s i (phaseAfter (fun _ => .loaded) .refused (s.exec i (loadPart (ex i))).1)
      (s.exec i (loadPart (ex i))).2 := by
  obtain ⟨hpending, hrule, hattempts, hlogs⟩ := hok
  have hrunning : s.phase i ≠ .refused := by
    rw [hs]
    decide
  refine exec_moves (loadActiveRule_wp hpending (.inl hrule)
    (fun n rule hfound hactive => ?_) fun e w hw => ?_)
  · have hlogs' : s.logs i ++ s.db.executionLogs.drop s.db.executionLogs.length = [] := by
      rw [List.drop_length, hlogs]
      rfl
    refine
      { rules := rfl
        session := ⟨hpending, hattempts, hlogs', rule, hfound⟩
        loads := fun _ => ⟨hs, ?_⟩
        starts := fun _ => Or.inl rfl
        running := hrunning }
    rintro ⟨other, hother, harch⟩
    have heq : some rule = some other := hfound.symm.trans hother
    cases heq
    rw [hactive] at harch
    cases harch
  · have hdb : w.store.db = s.db := hw.db
    refine
      { rules := by rw [hdb]
        session := ⟨hw.attempts.trans hattempts, ?_⟩
        loads := fun h => by cases h
        starts := fun _ => Or.inr rfl
        running := hrunning }
    rw [drop_same (by rw [hdb]), hlogs]
    rfl

omit [DecidableEq ι] [DecidableEq κ] in
theorem acquire_moves (hs : s.phase i = .loaded)
    (hok : SessionOk s.db (ex i).request.ruleId (s.logs i) (s.world i) .loaded) :
    Moves ex s i (phaseAfter (fun _ => .leased) .refused (s.exec i (acquirePart (ex i))).1)
      (s.exec i (acquirePart (ex i))).2 := by
  obtain ⟨hpending, hattempts, hlogs, hrule⟩ := hok
  have honward : ∀ phase, phase ≠ .loaded → ∀ (w : World) leases,
      w.store.db = s.db.withLeases leases →
      SessionOk w.store.db (ex i).request.ruleId
        (s.logs i ++ w.store.db.executionLogs.drop s.db.executionLogs.length) w phase →
      Moves ex s i phase w := fun phase hphase w leases hdb hsession =>
    .onward (by rw [hs]; decide) (by rw [hs]; decide) hphase (by rw [hdb]; rfl) hsession
  refine exec_moves (enterLease_wp hpending rfl (fun w leases _ hw _ _ => ?_)
    fun e w leases hw => ?_)
  · have hdb : w.store.db = s.db.withLeases leases := by
      rw [hw.store]
      rfl
    exact honward _ (by decide) w leases hdb
      ⟨by rw [hw.store], hw.rule, hrule.congr (by rw [hdb]; rfl)⟩
  · have hdb : w.store.db = s.db.withLeases leases := hw.db
    refine honward _ (by decide) w leases hdb ⟨hw.attempts.trans hattempts, ?_⟩
    rw [drop_same (by rw [hdb]; rfl), hlogs]
    rfl

omit [DecidableEq ι] [DecidableEq κ] in
theorem attempts_moves (hs : s.phase i = .leased)
    (hok : SessionOk s.db (ex i).request.ruleId (s.logs i) (s.world i) .leased) :
    Moves ex s i
      (phaseAfter (fun r => .attempted r.1 r.2) .ended (s.exec i (attemptsPart libs (ex i))).1)
      (s.exec i (attemptsPart libs (ex i))).2 := by
  obtain ⟨hpending, hnone, rule, hfound⟩ := hok
  have hready : ((s.world i).seeing s.db).Ready (ex i).request.ruleId rule :=
    ⟨hpending, hfound, .inl hnone⟩
  have honward : ∀ phase, phase ≠ .loaded → ∀ w : World,
      w.store = ((s.world i).seeing s.db).store →
      SessionOk w.store.db (ex i).request.ruleId
        (s.logs i ++ w.store.db.executionLogs.drop s.db.executionLogs.length) w phase →
      Moves ex s i phase w := fun phase hphase w hstore hsession =>
    .onward (by rw [hs]; decide) (by rw [hs]; decide) hphase (by rw [hstore]; rfl) hsession
  refine exec_moves (attemptLoop_wp hready (totalAttempts_pos _)
    (fun w last earlier attempt hw _ _ _ _ _ => ?_) fun e w attempts hw _ _ _ _ => ?_)
  · exact honward _ (by simp) w hw.store hw.ready.knows
  · exact honward _ (by decide) w hw.store trivial

omit [DecidableEq ι] [DecidableEq κ] in
theorem persist_moves {attempt : ExecutionAttempt} {attemptsUsed : Nat}
    (hs : s.phase i = .attempted attempt attemptsUsed)
    (hok : SessionOk s.db (ex i).request.ruleId (s.logs i) (s.world i)
      (.attempted attempt attemptsUsed)) :
    Moves ex s i .ended (s.exec i (persistPart (ex i) attempt attemptsUsed)).2 := by
  have hknows : ((s.world i).seeing s.db).Knows (ex i).request.ruleId := ⟨hok.pending, hok.loaded⟩
  have honward : ∀ w : World, w.store.db.alertRules = s.db.alertRules → Moves ex s i .ended w :=
    fun w hrules => .onward (by simp [hs]) (by simp [hs]) (by decide) hrules trivial
  refine wp_exec (R := fun _ w => Moves ex s i .ended w).mp (persistExecutionResult_wp hknows
    (fun w hw => honward w ?_) (fun e w hw => honward w ?_) fun e w hw => honward w ?_)
  · rw [hw.db]
    exact Db.storeResult_alertRules _ _ _
  · rw [hw.db]
    rfl
  · rw [hw.db]
    exact Db.storeResult_alertRules _ _ _

omit [DecidableEq ι] [DecidableEq κ] in
theorem release_moves (hs : s.phase i = .ended) :
    Moves ex s i .released (s.exec i (releasePart (ex i))).2 := by
  have honward : ∀ (w : World) leases, w.store.db = s.db.withLeases leases →
      Moves ex s i .released w := fun w leases hdb =>
    .onward (by rw [hs]; decide) (by rw [hs]; decide) (by decide) (by rw [hdb]; rfl) trivial
  exact wp_exec (R := fun _ w => Moves ex s i .released w).mp (releaseRuleExecutionLease_wp
    (fun w hw => honward w _ hw.db) fun e w leases hw => honward w leases hw.db)

end

/-- **What a step can do**, from a state that the invariant holds of. -/
theorem step_cases {s t : State ι κ} {label : Label ι κ} (hinv : SystemInv ex ar s)
    (h : step libs ex ar s label = some t) :
    (∃ i phase w, t = s.moved i phase w ∧ Moves ex s i phase w ∧ ∀ k, label ≠ .archiveCommit k) ∨
    (∃ k phase, t = s.setArchive k phase ∧ ArchiveOk s.db (ar k).ruleId phase ∧
      phase ≠ .committed ∧ ∀ k, label ≠ .archiveCommit k) ∨
    ∃ k, label = .archiveCommit k ∧ s.archive k = .loaded ∧
      t = { s.setArchive k .committed with db := s.db.archiveRule (ar k).ruleId (ar k).now } := by
  cases label with
  | load i =>
      simp only [step] at h
      split at h
      case h_1 hs =>
        cases h
        exact .inl ⟨i, _, _, rfl, load_moves hs (hs ▸ hinv.sessions i), fun _ h => by cases h⟩
      case h_2 => cases h
  | acquire i =>
      simp only [step] at h
      split at h
      case h_1 hs =>
        cases h
        exact .inl ⟨i, _, _, rfl, acquire_moves hs (hs ▸ hinv.sessions i), fun _ h => by cases h⟩
      case h_2 => cases h
  | attempts i =>
      simp only [step] at h
      split at h
      case h_1 hs =>
        cases h
        exact .inl ⟨i, _, _, rfl, attempts_moves hs (hs ▸ hinv.sessions i), fun _ h => by cases h⟩
      case h_2 => cases h
  | persist i =>
      simp only [step] at h
      split at h
      case h_1 hs =>
        cases h
        exact .inl ⟨i, _, _, rfl, persist_moves hs (hs ▸ hinv.sessions i), fun _ h => by cases h⟩
      case h_2 => cases h
  | release i =>
      simp only [step] at h
      split at h
      case h_1 hs =>
        cases h
        exact .inl ⟨i, _, _, rfl, release_moves hs, fun _ h => by cases h⟩
      case h_2 => cases h
  | archiveLoad k =>
      simp only [step] at h
      split at h
      case h_1 hs =>
        split at h
        case h_1 rule hfound =>
          cases h
          refine .inr (.inl ⟨k, _, rfl, ?_, ?_, fun _ h => by cases h⟩)
          · split
            · trivial
            · exact ⟨rule, hfound⟩
          · split <;> decide
        case h_2 =>
          cases h
          exact .inr (.inl ⟨k, _, rfl, trivial, by decide, fun _ h => by cases h⟩)
      case h_2 => cases h
  | archiveCommit k =>
      simp only [step] at h
      split at h
      case h_1 hs =>
        cases h
        exact .inr (.inr ⟨k, rfl, hs, rfl⟩)
      case h_2 => cases h

/-- Every step keeps what the executions and the calls of `archive_rule` know. -/
theorem step_systemInv {s t : State ι κ} {label : Label ι κ} (hinv : SystemInv ex ar s)
    (h : step libs ex ar s label = some t) : SystemInv ex ar t := by
  obtain ⟨i, phase, w, rfl, hm, -⟩ | ⟨k, phase, rfl, hok, -⟩ | ⟨k, -, hk, rfl⟩ := step_cases hinv h
  · refine ⟨fun j => ?_, fun k => ?_⟩
    · by_cases hj : j = i
      · subst hj
        simpa [State.moved] using hm.session
      · simpa [State.moved, hj] using (hinv.sessions j).mono fun h => h.congr hm.rules
    · exact (hinv.archives k).mono (fun h => h.congr hm.rules) fun h => h.congr hm.rules
  · refine ⟨hinv.sessions, fun k' => ?_⟩
    by_cases hk : k' = k
    · subst hk
      simpa [State.setArchive] using hok
    · simpa [State.setArchive, hk] using hinv.archives k'
  · refine ⟨fun j => (hinv.sessions j).mono fun h => h.archiveRule _, fun k' => ?_⟩
    by_cases hk' : k' = k
    · subst hk'
      have hrule : ArchiveOk s.db (ar k').ruleId .loaded := hk ▸ hinv.archives k'
      have harchived : ArchiveOk (s.db.archiveRule (ar k').ruleId (ar k').now) (ar k').ruleId
          .committed := Db.archived_archiveRule hrule
      simpa [State.setArchive] using harchived
    · simpa [State.setArchive, hk'] using
        (hinv.archives k').mono (fun h => h.archiveRule _) fun h => h.archiveRule _

/-! ## Archived rules -/

/-- The execution has done nothing: no query, no mail, no execution log. -/
def State.Idle (s : State ι κ) (i : ι) : Prop :=
  (∀ r ∈ (s.world i).attempts, r.queried = false ∧ r.handed = []) ∧ s.logs i = []

/-- The execution has not committed its lease. -/
def State.Waiting (s : State ι κ) (i : ι) : Prop :=
  s.phase i = .start ∨ s.phase i = .loaded ∨ s.phase i = .refused

/-- In this run from `s`: once the rule of an execution has been archived and the execution
has not committed its lease, it does nothing any more. -/
def ArchivedNeverRuns (libs : Libraries) (ex : ι → Execution) (ar : κ → ArchiveRequest)
    (s : State ι κ) (i : ι) (labels : List (Label ι κ)) : Prop :=
  ∀ as bs t u k, labels = as ++ bs → fire (step libs ex ar) s as = some t →
    fire (step libs ex ar) t bs = some u → t.archive k = .committed →
    (ar k).ruleId = (ex i).request.ruleId → t.Waiting i → u.Idle i

/-- The step does not archive the rule of the execution while the execution stands between
its check and its lease. -/
def NotBetween (ex : ι → Execution) (ar : κ → ArchiveRequest) (i : ι) (s : State ι κ) :
    Label ι κ → Prop
  | .archiveCommit k => (ar k).ruleId = (ex i).request.ruleId → s.phase i ≠ .loaded
  | _ => True

/-- An execution with a loaded rule has a rule that is not archived. -/
structure LoadedActive (ex : ι → Execution) (ar : κ → ArchiveRequest) (i : ι)
    (s : State ι κ) : Prop where
  system : SystemInv ex ar s
  active : s.phase i = .loaded → ¬ s.db.Archived (ex i).request.ruleId

theorem step_loadedActive {s t : State ι κ} {i : ι} {label : Label ι κ}
    (hinv : LoadedActive ex ar i s) (hcond : NotBetween ex ar i s label)
    (h : step libs ex ar s label = some t) : LoadedActive ex ar i t := by
  refine ⟨step_systemInv hinv.system h, ?_⟩
  obtain ⟨j, phase, w, rfl, hm, -⟩ | ⟨k, phase, rfl, -⟩ | ⟨k, rfl, hk, rfl⟩ :=
    step_cases hinv.system h
  · intro hloaded hafter
    have harch : s.db.Archived (ex i).request.ruleId := hafter.congr hm.rules.symm
    clear hafter
    by_cases hj : i = j
    · subst hj
      have hphase : phase = .loaded := by simpa [State.moved] using hloaded
      exact (hm.loads hphase).2 harch
    · exact hinv.active (by simpa [State.moved, hj] using hloaded) harch
  · exact hinv.active
  · intro hloaded harch
    by_cases hrule : (ar k).ruleId = (ex i).request.ruleId
    · exact hcond hrule hloaded
    · exact hinv.active hloaded (Db.archived_of_archiveRule (Ne.symm hrule) harch)

/-- The rule has been archived before the execution has loaded it. -/
structure Stopped (ex : ι → Execution) (ar : κ → ArchiveRequest) (i : ι)
    (s : State ι κ) : Prop where
  system : SystemInv ex ar s
  archived : s.db.Archived (ex i).request.ruleId
  phase : s.phase i = .start ∨ s.phase i = .refused

/-- An execution that is stopped stays so: its check refuses the rule. -/
theorem step_stopped {s t : State ι κ} {i : ι} {label : Label ι κ} (hinv : Stopped ex ar i s)
    (h : step libs ex ar s label = some t) : Stopped ex ar i t := by
  have hsystem := step_systemInv hinv.system h
  obtain ⟨j, phase, w, rfl, hm, -⟩ | ⟨k, phase, rfl, -⟩ | ⟨k, -, hk, rfl⟩ :=
    step_cases hinv.system h
  · refine ⟨hsystem, hinv.archived.congr hm.rules, ?_⟩
    by_cases hj : i = j
    · subst hj
      have hstart : s.phase i = .start := hinv.phase.resolve_right hm.running
      obtain hloaded | hrefused := hm.starts hstart
      · exact absurd hinv.archived (hm.loads hloaded).2
      · exact .inr (by simpa [State.moved] using hrefused)
    · simpa [State.moved, hj] using hinv.phase
  · exact ⟨hsystem, hinv.archived, hinv.phase⟩
  · exact ⟨hsystem, hinv.archived.archiveRule _, hinv.phase⟩

omit [DecidableEq ι] [DecidableEq κ] in
theorem Stopped.idle {s : State ι κ} {i : ι} (h : Stopped ex ar i s) : s.Idle i := by
  have hok := h.system.sessions i
  have hnothing : (s.world i).attempts = [] ∧ s.logs i = [] := by
    obtain hstart | hrefused := h.phase
    · rw [hstart] at hok
      exact hok.2.2
    · rw [hrefused] at hok
      exact hok
  refine ⟨fun r hr => ?_, hnothing.2⟩
  rw [hnothing.1] at hr
  cases hr

/-- **An archived rule does not run**, in every run that does not archive it while the
execution stands between its check and its lease. -/
theorem archived_never_runs (libs : Libraries) (ex : ι → Execution) (ar : κ → ArchiveRequest)
    (s : State ι κ) (hs : Initial s) (i : ι) (labels : List (Label ι κ))
    (hevery : Every (step libs ex ar) (NotBetween ex ar i) s labels) :
    ArchivedNeverRuns libs ex ar s i labels := by
  intro as bs t u k hlabels htofire hufire hcommitted hrule hwaiting
  subst hlabels
  have hstart : LoadedActive ex ar i s :=
    ⟨hs.systemInv ex ar, fun h => by rw [hs.phase] at h; cases h⟩
  have ht : LoadedActive ex ar i t :=
    fire_every (fun _ _ _ => step_loadedActive) hstart hevery.left htofire
  have harchived : t.db.Archived (ex i).request.ruleId := by
    have h := ht.system.archives k
    rw [hcommitted, hrule] at h
    exact h
  have hstopped : Stopped ex ar i t := by
    refine ⟨ht.system, harchived, ?_⟩
    obtain hphase | hphase | hphase := hwaiting
    · exact .inl hphase
    · exact absurd harchived (ht.active hphase)
    · exact .inr hphase
  have hu : Stopped ex ar i u := fire_invariant (fun _ _ _ => step_stopped) hstopped hufire
  exact hu.idle

/-! ## One execution and one administrator -/

def soloExecution (_ : Unit) : Execution :=
  { request := Sample.request, env := Sample.env (20000 * DateTime.hour) [Sample.row "a"] }

def soloArchive (_ : Unit) : ArchiveRequest := { ruleId := 1, now := 20000 * DateTime.hour }

def soloStart : State Unit Unit where
  db := Sample.db
  phase := fun _ => .start
  world := fun _ => World.start Sample.db
  logs := fun _ => []
  archive := fun _ => .start

theorem soloStart_initial : Initial soloStart :=
  ⟨fun _ => rfl, fun _ => rfl, fun _ => rfl, fun _ => rfl⟩

/-- A rule archived first is not run. -/
theorem archived_never_runs_archivedFirst :
    ArchivedNeverRuns Sample.libs soloExecution soloArchive soloStart ()
      [.archiveLoad (), .archiveCommit (), .load ()] := by
  refine archived_never_runs Sample.libs soloExecution soloArchive soloStart soloStart_initial ()
    _ ⟨trivial, fun t ht => ⟨fun _ hloaded => ?_, fun u _ => ⟨trivial, fun _ _ => trivial⟩⟩⟩
  have hphase : (step Sample.libs soloExecution soloArchive soloStart (.archiveLoad ())).map
      (fun t => t.phase ()) = some .start := by decide +kernel
  rw [ht] at hphase
  cases (Option.some.inj hphase).symm.trans hloaded

/-- **An archived rule runs**: it is archived while the execution waits for its lease, and
the execution makes its query, sends its mail and stores its log. -/
theorem archived_rule_runs :
    Initial soloStart ∧ ¬ ArchivedNeverRuns Sample.libs soloExecution soloArchive soloStart ()
      ([.load (), .archiveLoad (), .archiveCommit ()] ++
        [.acquire (), .attempts (), .persist ()]) := by
  refine ⟨soloStart_initial, fun hclaim => ?_⟩
  have hrun : (fire (step Sample.libs soloExecution soloArchive) soloStart
      ([.load (), .archiveLoad (), .archiveCommit ()] ++
        [.acquire (), .attempts (), .persist ()])).map (fun u =>
      ((u.world ()).attempts.map fun r => (r.queried, r.handed.length), (u.logs ()).length)) =
      some ([(true, 1)], 1) := by decide +kernel
  have hbefore : (fire (step Sample.libs soloExecution soloArchive) soloStart
      [.load (), .archiveLoad (), .archiveCommit ()]).map (fun t => (t.archive (), t.phase ())) =
      some (.committed, .loaded) := by decide +kernel
  obtain ⟨u, hu, hdone⟩ := Option.map_eq_some_iff.mp hrun
  obtain ⟨t, ht, htu⟩ := fire_append.mp hu
  rw [ht] at hbefore
  obtain ⟨harchived, hloaded⟩ := Prod.mk.inj (Option.some.inj hbefore)
  obtain ⟨-, hlogs⟩ := hclaim _ _ t u () rfl ht htu harchived rfl (.inr (.inl hloaded))
  rw [hlogs] at hdone
  cases (Prod.mk.inj hdone).2

end Archiving

end EarlyWarning
