/-
# `WorkerLoop` — a worker process, from its start to its end

`main` and `run_sync_loop` of `app/worker.py`.  A process records its start, then goes through the
same pass again and again: it sleeps, cleans the logs when they are due, synchronizes the jobs
with the rules and records how that went.  Every one of these calls may raise.

What the calls of a pass meet is a `Pass`; a process is run over a list of them, of any length,
and is `running` when the list is used up.  The trace (`World.events`) says what it has called.
The three systems that the loop drives have modules of their own: the jobs (`Scheduler`), the row
of the heartbeat (`WorkerHealth`) and the logs (`LogRetention`), of which only whether the cleanup
raises matters here.
-/
import EarlyWarning.Executor
import EarlyWarning.Lib.Wp
import EarlyWarning.Scheduler
import EarlyWarning.WorkerHealth
import Mathlib.Order.Lattice

namespace EarlyWarning.WorkerLoop

open Lib Scheduler WorkerHealth

/-! ## What a process meets -/

/-- `RuleSyncResult` -/
structure RuleSyncResult where
  ok : Bool
  error : String := ""
deriving DecidableEq

/-- `except KeyboardInterrupt` -/
def isKeyboardInterrupt (exc : PyExc) : Bool :=
  exc.cls == .baseException && exc.typeName == "KeyboardInterrupt"

/-- How a heartbeat is recorded, in a session of its own. -/
structure Recording where
  now : DateTime
  /-- the row is committed -/
  committed : Bool := true
  raised : Option PyExc := none
  committed_of_none : raised = none → committed = true

/-- What the calls of one pass of the loop meet. -/
structure Pass (τ T : Type) where
  /-- what `sleep_fn` raises -/
  sleep : Option PyExc := none
  /-- the jobs that the scheduler drops by itself meanwhile -/
  dropped : List String := []
  /-- `monotonic_fn()` -/
  monotonic : T
  /-- what `cleanup_logs` raises -/
  cleanup : Option PyExc := none
  /-- the rows of the rules, or what reading them raises -/
  rules : Except PyExc (List ScheduledRule)
  distinct : ∀ rows, rules = .ok rows → (rows.filterMap ScheduledRule.id).Nodup
  /-- in which order a set of rule ids is gone over -/
  order : List Int → List Int
  perm : ∀ ids, (order ids).Perm ids
  /-- which calls of the scheduler fail -/
  fails : Call → Bool
  /-- `sync` is interrupted, and leaves the scheduler so -/
  interrupted : Option (PyExc × Scheduler.State τ) := none
  interrupted_base : ∀ exc left, interrupted = some (exc, left) → exc.isException = false
  record : Recording

/-- A call of a worker process. -/
inductive Event (T : Type)
  /-- `record_worker_start`, and whether its row is committed -/
  | startHeartbeat (now : DateTime) (committed : Bool)
  | cleanup
  /-- the clock is read, and says that a cleanup is due -/
  | clock (now : T) (due : Bool)
  | sync (result : RuleSyncResult)
  /-- `record_sync` -/
  | heartbeat (result : RuleSyncResult) (now : DateTime) (committed : Bool)
  | start
  | sleep
  | shutdown
deriving DecidableEq

structure World (τ T : Type) where
  scheduler : Scheduler.State τ
  schedulerStarted : Bool := false
  heartbeat : Option WorkerHeartbeat
  events : List (Event T) := []

/-- What has become of the process. -/
inductive Ending
  | running
  | stopped
deriving DecidableEq

/-! ## `app/worker.py` -/

section

variable {τ T : Type}

def happens (event : Event T) : Prog (World τ T) PyExc Unit :=
  modify fun w => { w with events := w.events ++ [event] }

def raises : Option PyExc → Prog (World τ T) PyExc Unit
  | some exc => throw exc
  | none => pure ()

/-- `except Exception as exc: log_exception_safely(…)` -/
def logged (body : Prog (World τ T) PyExc Unit) : Prog (World τ T) PyExc Unit :=
  tryCatch body fun exc => if exc.isException then pure () else throw exc

/-- `_cleanup_logs_once` -/
def cleanupLogsOnce (cleanup : Option PyExc) : Prog (World τ T) PyExc Unit := do
  happens .cleanup
  logged (raises cleanup)

def syncFailed (exc : PyExc) : RuleSyncResult where
  ok := false
  error := publicErrorSummary exc WORKER_SYNC_FAILURE

def ruleScheduleSyncError : PyExc :=
  ⟨.exception, "RuleScheduleSyncError", "规则调度同步未完全成功", some "规则调度同步未完全成功",
    by decide, nofun⟩

variable (cron : CronTrigger τ) (misfireGraceSeconds : Int)

/-- `sync_rules_once` -/
def syncRulesOnce (pass : Pass τ T) : Prog (World τ T) PyExc RuleSyncResult := do
  match pass.rules with
  | .error exc => if exc.isException then return syncFailed exc else throw exc
  | .ok rows =>
      let rules := rows.filter fun rule => rule.archivedAt = none
      match pass.interrupted with
      | some (exc, left) =>
          modify fun w => { w with scheduler := left }
          throw exc
      | none =>
          let s := (← get).scheduler
          let stale := pass.order (staleIds s (desiredRules cron rules))
          let run := Scheduler.sync cron misfireGraceSeconds rules stale pass.fails s
          modify fun w => { w with scheduler := run.toState }
          if run.failedOperations ≠ 0 then
            return syncFailed ruleScheduleSyncError
          return { ok := true }

/-- A `with session_factory()` block that writes the row of the heartbeat. -/
def record (recording : Recording) (row : Option WorkerHeartbeat → WorkerHeartbeat) :
    Prog (World τ T) PyExc Unit :=
  logged do
    if recording.committed then
      modify fun w => { w with heartbeat := some (row w.heartbeat) }
    raises recording.raised

/-- `_record_sync_heartbeat` -/
def recordSyncHeartbeat (recording : Recording) (workerId : String) (result : RuleSyncResult) :
    Prog (World τ T) PyExc Unit := do
  happens (.heartbeat result recording.now recording.committed)
  record recording fun row =>
    recordWorkerSync row workerId result.ok result.error recording.now

/-- `_record_start_heartbeat` -/
def recordStartHeartbeat (recording : Recording) (workerId : String) :
    Prog (World τ T) PyExc Unit := do
  happens (.startHeartbeat recording.now recording.committed)
  record recording fun row => recordWorkerStart row workerId recording.now

/-- What both parts of `run_sync_loop` end with. -/
def syncAndRecord (workerId : Option String) (pass : Pass τ T) :
    Prog (World τ T) PyExc Unit := do
  let result ← syncRulesOnce cron misfireGraceSeconds pass
  happens (.sync result)
  match workerId with
  | some workerId => recordSyncHeartbeat pass.record workerId result
  | none => pure ()

variable [LinearOrder T] (after : T → T)

/-- The cleanup of a turn, when it is due; it returns `next_cleanup_at`.  `after now` is
`now + active_cleanup_interval`. -/
def cleanupWhenDue (nextCleanupAt now : T) (cleanup : Option PyExc) :
    Prog (World τ T) PyExc T := do
  happens (.clock now (nextCleanupAt ≤ now))
  if nextCleanupAt ≤ now then
    cleanupLogsOnce cleanup
    return after now
  return nextCleanupAt

/-- The body of `while True`; it returns `next_cleanup_at`. -/
def turn (workerId : Option String) (nextCleanupAt : T) (pass : Pass τ T) :
    Prog (World τ T) PyExc T := do
  happens .sleep
  raises pass.sleep
  modify fun w => { w with
    scheduler := { w.scheduler with
      jobs := pass.dropped.foldl (fun jobs id => jobs.erase id) w.scheduler.jobs } }
  let nextCleanupAt ← cleanupWhenDue after nextCleanupAt pass.monotonic pass.cleanup
  syncAndRecord cron misfireGraceSeconds workerId pass
  return nextCleanupAt

/-- `while True`, over these passes. -/
def turns (workerId : Option String) : T → List (Pass τ T) → Prog (World τ T) PyExc Ending
  | _, [] => return .running
  | nextCleanupAt, pass :: passes => do
      let nextCleanupAt ← turn cron misfireGraceSeconds after workerId nextCleanupAt pass
      turns workerId nextCleanupAt passes

/-- What the `try` block of `run_sync_loop` does before `while True`. -/
def firstPass (workerId : Option String) (startRaises : Option PyExc) (first : Pass τ T) :
    Prog (World τ T) PyExc Unit := do
  cleanupLogsOnce first.cleanup
  happens (.clock first.monotonic true)
  syncAndRecord cron misfireGraceSeconds workerId first
  happens .start
  raises startRaises
  modify fun w => { w with schedulerStarted := true }

/-- `except KeyboardInterrupt` -/
def handleInterrupt (shutdownRaises : Option PyExc) (exc : PyExc) :
    Prog (World τ T) PyExc Ending := do
  if isKeyboardInterrupt exc then
    if (← get).schedulerStarted then
      happens .shutdown
      raises shutdownRaises
    return .stopped
  else throw exc

/-- `run_sync_loop`; `startRaises` and `shutdownRaises` are what the two calls of the scheduler
raise. -/
def runSyncLoop (workerId : Option String) (startRaises shutdownRaises : Option PyExc)
    (first : Pass τ T) (passes : List (Pass τ T)) : Prog (World τ T) PyExc Ending :=
  tryCatch
    (do
      firstPass cron misfireGraceSeconds workerId startRaises first
      turns cron misfireGraceSeconds after workerId (after first.monotonic) passes)
    (handleInterrupt shutdownRaises)

/-- `main`, but for `init_db`: the scheduler is built without jobs. -/
def main (workerId : String) (recording : Recording) (startRaises shutdownRaises : Option PyExc)
    (first : Pass τ T) (passes : List (Pass τ T)) : Prog (World τ T) PyExc Ending := do
  recordStartHeartbeat recording workerId
  modify fun w => { w with scheduler := State.init cron .empty }
  runSyncLoop cron misfireGraceSeconds after (some workerId) startRaises shutdownRaises first
    passes

end

variable {τ T : Type} {cron : CronTrigger τ} {misfireGraceSeconds : Int} {pass first : Pass τ T}
  {passes : List (Pass τ T)} {w : World τ T} {workerId : Option String}

/-- What a call of the pass raises, other than to sleep. -/
def Pass.Meets (pass : Pass τ T) (exc : PyExc) : Prop :=
  pass.cleanup = some exc ∨ pass.rules = .error exc ∨
    (∃ left, pass.interrupted = some (exc, left)) ∨ pass.record.raised = some exc

/-- What ends the loop: what sleeping raises, and else what is no `Exception`. -/
def Pass.Escapes (pass : Pass τ T) (exc : PyExc) : Prop :=
  pass.sleep = some exc ∨ pass.Meets exc ∧ exc.isException = false

/-! ## The calls, one by one -/

section

variable {E : PyExc → World τ T → Prop}

@[simp] theorem wp_happens {Q : Unit → World τ T → Prop} (event : Event T) :
    wp (happens event) Q E w = Q () { w with events := w.events ++ [event] } := rfl

theorem wp_raises {Q : Unit → World τ T → Prop} {raised : Option PyExc} :
    wp (raises raised) Q E w ↔
      (raised = none → Q () w) ∧ ∀ exc, raised = some exc → E exc w := by
  cases raised with
  | none => exact ⟨fun h => ⟨fun _ => h, nofun⟩, fun h => h.1 rfl⟩
  | some exc =>
      refine ⟨fun h => ⟨nofun, fun exc' heq => ?_⟩, fun h => h.2 exc rfl⟩
      cases heq
      exact h

/-- An `Exception` is logged, and the loop goes on. -/
theorem wp_logged {Q : Unit → World τ T → Prop} {body : Prog (World τ T) PyExc Unit} :
    wp (logged body) Q E w =
      wp body Q (fun exc w' => if exc.isException then Q () w' else E exc w') w := by
  rw [logged, wp_tryCatch]
  congr 1
  funext exc w'
  split <;> rfl

theorem cleanupLogsOnce_wp {Q : Unit → World τ T → Prop} {cleanup : Option PyExc}
    (hQ : Q () { w with events := w.events ++ [.cleanup] })
    (hE : ∀ exc, cleanup = some exc → exc.isException = false →
      E exc { w with events := w.events ++ [.cleanup] }) :
    wp (cleanupLogsOnce cleanup) Q E w := by
  rw [cleanupLogsOnce, wp_bind, wp_happens, wp_logged, wp_raises]
  refine ⟨fun _ => hQ, fun exc hexc => ?_⟩
  split
  case isTrue => exact hQ
  case isFalse hbase => exact hE exc hexc (Bool.eq_false_iff.mpr hbase)

end

/-! ## One synchronization -/

/-- An archived rule is not scheduled, whether it is read or not. -/
theorem inDesiredState_active {rows : List ScheduledRule} {jobs : Jobs τ} {n : Int} :
    InDesiredState cron (rows.filter fun rule => rule.archivedAt = none) jobs n ↔
      InDesiredState cron rows jobs n := by
  have hdesired : ∀ signature,
      Desired cron (rows.filter fun rule => rule.archivedAt = none) n signature ↔
        Desired cron rows n signature := by
    intro signature
    constructor
    · rintro ⟨rule, hrule, hscheduled⟩
      exact ⟨rule, List.mem_of_mem_filter hrule, hscheduled⟩
    · rintro ⟨rule, hrule, hid, henabled, hactive, htrigger⟩
      exact ⟨rule, List.mem_filter.mpr ⟨hrule, decide_eq_true hactive⟩, hid, henabled, hactive,
        htrigger⟩
  unfold InDesiredState
  simp only [hdesired]

/-- What a synchronization has done when it returns. -/
structure Synchronized (cron : CronTrigger τ) (pass : Pass τ T) (s t : Scheduler.State τ)
    (result : RuleSyncResult) : Prop where
  remembers : Remembers cron t
  ok : result.ok = true → ∃ rows, pass.rules = .ok rows ∧ ∀ n, InDesiredState cron rows t.jobs n
  healthy : ∀ rows, pass.rules = .ok rows → (∀ c, pass.fails c = false) → result.ok = true
  /-- what could not be read changes nothing -/
  unread : ∀ exc, pass.rules = .error exc → result.ok = false ∧ t = s

/-- The calls that a synchronization can come to are those of `Scheduler.sync`. -/
theorem sync_synchronized (misfireGraceSeconds : Int) {s : Scheduler.State τ}
    {rows : List ScheduledRule} (hrows : pass.rules = .ok rows) (hremembers : Remembers cron s) :
    let rules := rows.filter fun rule => rule.archivedAt = none
    let run := Scheduler.sync cron misfireGraceSeconds rules
      (pass.order (staleIds s (desiredRules cron rules))) pass.fails s
    Remembers cron run.toState ∧
      (run.failedOperations = 0 → ∀ n, InDesiredState cron rows run.jobs n) ∧
      ((∀ c, pass.fails c = false) → run.failedOperations = 0) := by
  intro rules run
  have hdistinct : (rules.filterMap ScheduledRule.id).Nodup :=
    (pass.distinct rows hrows).sublist (List.filter_sublist.filterMap _)
  obtain ⟨hinv, hrule⟩ : RunInv cron pass.fails s run ∧ _ :=
    sync_rule misfireGraceSeconds hremembers hdistinct (pass.perm _)
  refine ⟨hinv.remembers, fun hnone n => inDesiredState_active.mp ?_, fun hnone => ?_⟩
  · rcases hrule n with ⟨⟨c, hc, hfails⟩, -⟩ | ⟨-, hstate⟩
    · exact absurd hnone (hinv.failed.mpr ⟨c, List.mem_of_mem_filter hc, hfails⟩)
    · exact hstate
  · by_contra hfailed
    obtain ⟨c, -, hc⟩ := hinv.failed.mp hfailed
    rw [hnone c] at hc
    cases hc

theorem syncRulesOnce_wp {Q : RuleSyncResult → World τ T → Prop} {E : PyExc → World τ T → Prop}
    (hremembers : Remembers cron w.scheduler)
    (hQ : ∀ result t, Synchronized cron pass w.scheduler t result →
      Q result { w with scheduler := t })
    (hE : ∀ exc t, pass.Meets exc → exc.isException = false →
      E exc { w with scheduler := t }) :
    wp (syncRulesOnce cron misfireGraceSeconds pass) Q E w := by
  unfold syncRulesOnce
  split
  case h_1 exc hrules =>
    split
    case isTrue =>
      refine hQ (syncFailed exc) w.scheduler
        ⟨hremembers, nofun, fun rows h => ?_, fun _ _ => ⟨rfl, rfl⟩⟩
      cases hrules.symm.trans h
    case isFalse hbase =>
      exact hE exc w.scheduler (.inr (.inl hrules)) (Bool.eq_false_iff.mpr hbase)
  case h_2 rows hrules =>
    obtain ⟨hremembers', hdesired, hhealthy⟩ :=
      sync_synchronized misfireGraceSeconds hrules hremembers
    have hread : ∀ exc, pass.rules ≠ .error exc := by
      intro exc herror
      cases hrules.symm.trans herror
    split
    case h_1 exc left hinterrupted =>
      exact hE exc left (.inr (.inr (.inl ⟨left, hinterrupted⟩)))
        (pass.interrupted_base exc left hinterrupted)
    case h_2 =>
      simp only [wp_bind, wp_get, wp_modify]
      split
      case isTrue hfailed =>
        exact hQ _ _ ⟨hremembers', nofun, fun _ _ hnone => absurd (hhealthy hnone) hfailed,
          fun exc h => absurd h (hread exc)⟩
      case isFalse hnone =>
        exact hQ _ _ ⟨hremembers', fun _ => ⟨rows, hrules, hdesired (not_not.mp hnone)⟩,
          fun _ _ _ => rfl, fun exc h => absurd h (hread exc)⟩

/-! ## What a part of the loop adds to the trace -/

/-- The row of the heartbeat after a call. -/
def rowAfter (workerId : Option String) (row : Option WorkerHeartbeat) :
    Event T → Option WorkerHeartbeat
  | .startHeartbeat now true =>
      match workerId with
      | some workerId => some (recordWorkerStart row workerId now)
      | none => row
  | .heartbeat result now true =>
      match workerId with
      | some workerId => some (recordWorkerSync row workerId result.ok result.error now)
      | none => row
  | _ => row

/-- From `w` to `w'` these calls were made, and the row is the one that they have written. -/
structure Written (workerId : Option String) (w w' : World τ T) (added : List (Event T)) :
    Prop where
  events : w'.events = w.events ++ added
  heartbeat : w'.heartbeat = added.foldl (rowAfter workerId) w.heartbeat

structure Progress (workerId : Option String) (w w' : World τ T) (added : List (Event T)) :
    Prop extends Written workerId w w' added where
  started : w'.schedulerStarted = w.schedulerStarted

/-- The last reading of the clock, when the calls end with one, asks for no cleanup. -/
def Settled (events : List (Event T)) : Prop :=
  ∀ before now, events ≠ before ++ [.sleep, .clock now true]

/-- Settled calls, the last of which is not to sleep. -/
structure Awake (events : List (Event T)) : Prop where
  settled : Settled events
  awake : events.getLast? ≠ some .sleep

/-- The part `full` of the trace, or a beginning of it that is settled. -/
def Broken (workerId : Option String) (w w' : World τ T) (full : List (Event T)) : Prop :=
  ∃ added, Progress workerId w w' added ∧ added <+: full ∧ Settled added

section

variable {w' w'' : World τ T} {added more full rest : List (Event T)}

theorem Written.trans (h : Written workerId w w' added) (h' : Written workerId w' w'' more) :
    Written workerId w w'' (added ++ more) where
  events := by rw [h'.events, h.events, List.append_assoc]
  heartbeat := by rw [h'.heartbeat, h.heartbeat, List.foldl_append]

theorem Progress.trans (h : Progress workerId w w' added) (h' : Progress workerId w' w'' more) :
    Progress workerId w w'' (added ++ more) :=
  ⟨h.toWritten.trans h'.toWritten, h'.started.trans h.started⟩

theorem settled_nil : Settled ([] : List (Event T)) := by
  intro before now h
  cases before <;> cases h

theorem settled_snoc (init : List (Event T)) {event : Event T}
    (h : ∀ now, event ≠ .clock now true) : Settled (init ++ [event]) := by
  intro before now heq
  rw [show [Event.sleep, .clock now true] = [.sleep] ++ [.clock now true] from rfl,
    ← List.append_assoc] at heq
  exact h now (List.cons.inj (List.append_inj' heq rfl).2).1

/-- What is settled stays so, when what follows is. -/
theorem Awake.settled_append (h : Awake added) (h' : Settled more) :
    Settled (added ++ more) := by
  intro before now heq
  rcases List.eq_nil_or_concat' more with rfl | ⟨init, event, rfl⟩
  · rw [List.append_nil] at heq
    exact h.settled before now heq
  · rw [show [Event.sleep, .clock now true] = [.sleep] ++ [.clock now true] from rfl,
      ← List.append_assoc, ← List.append_assoc] at heq
    obtain ⟨hinit, hevent⟩ := List.append_inj' heq rfl
    rcases List.eq_nil_or_concat' init with rfl | ⟨init, slept, rfl⟩
    · rw [List.append_nil] at hinit
      exact h.awake (by rw [hinit, List.getLast?_concat])
    · rw [← List.append_assoc] at hinit
      obtain ⟨-, hslept⟩ := List.append_inj' hinit rfl
      exact h' init now (by rw [hslept, hevent, List.append_assoc]; rfl)

theorem Awake.append (h : Awake added) (h' : Awake more) : Awake (added ++ more) where
  settled := h.settled_append h'.settled
  awake := by
    rw [List.getLast?_append]
    have hawake := h'.awake
    cases hlast : more.getLast? with
    | none => exact h.awake
    | some event =>
        rw [hlast] at hawake
        exact hawake

theorem Progress.broken (h : Progress workerId w w' added) (hawake : Awake added)
    (h' : Broken workerId w' w'' full) : Broken workerId w w'' (added ++ full) := by
  obtain ⟨more, hmore, hprefix, hsettled⟩ := h'
  exact ⟨added ++ more, h.trans hmore, (List.prefix_append_right_inj added).mpr hprefix,
    hawake.settled_append hsettled⟩

theorem Broken.append (h : Broken workerId w w' full) : Broken workerId w w' (full ++ rest) := by
  obtain ⟨added, hadded, hprefix, hsettled⟩ := h
  exact ⟨added, hadded, hprefix.trans (List.prefix_append full rest), hsettled⟩

end

/-- The end of a pass. -/
def closing (workerId : Option String) (pass : Pass τ T) (result : RuleSyncResult) :
    List (Event T) :=
  .sync result ::
    match workerId with
    | some _ => [.heartbeat result pass.record.now pass.record.committed]
    | none => []

theorem awake_closing {result : RuleSyncResult} : Awake (closing workerId pass result) := by
  cases workerId with
  | none => exact ⟨settled_snoc [] nofun, nofun⟩
  | some workerId => exact ⟨settled_snoc [.sync result] nofun, nofun⟩

theorem record_wp {Q : Unit → World τ T → Prop} {E : PyExc → World τ T → Prop}
    {recording : Recording} {row : Option WorkerHeartbeat → WorkerHeartbeat}
    (hQ : Q () { w with
      heartbeat := if recording.committed then some (row w.heartbeat) else w.heartbeat })
    (hE : ∀ exc, recording.raised = some exc → exc.isException = false →
      E exc { w with
        heartbeat := if recording.committed then some (row w.heartbeat) else w.heartbeat }) :
    wp (record recording row) Q E w := by
  have hraises : ∀ w', Q () w' →
      (∀ exc, recording.raised = some exc → exc.isException = false → E exc w') →
      wp (raises recording.raised) Q
        (fun exc w' => if exc.isException then Q () w' else E exc w') w' := by
    intro w' hQ hE
    rw [wp_raises]
    refine ⟨fun _ => hQ, fun exc hexc => ?_⟩
    split
    case isTrue => exact hQ
    case isFalse hbase => exact hE exc hexc (Bool.eq_false_iff.mpr hbase)
  rw [record, wp_logged]
  cases hcommitted : recording.committed with
  | true =>
      rw [hcommitted] at hQ hE
      simp only [if_true, wp_bind, wp_modify]
      exact hraises _ hQ hE
  | false =>
      rw [hcommitted] at hQ hE
      exact hraises _ hQ hE

theorem progress_heartbeat {workerId : String} {result : RuleSyncResult} {now : DateTime}
    {committed : Bool} : Progress (some workerId) w
      { w with
        heartbeat :=
          if committed then some (recordWorkerSync w.heartbeat workerId result.ok result.error now)
          else w.heartbeat
        events := w.events ++ [.heartbeat result now committed] }
      [.heartbeat result now committed] := by
  cases committed with
  | true => exact ⟨⟨rfl, rfl⟩, rfl⟩
  | false => exact ⟨⟨rfl, rfl⟩, rfl⟩

theorem syncAndRecord_wp {Q : Unit → World τ T → Prop} {E : PyExc → World τ T → Prop}
    (hremembers : Remembers cron w.scheduler)
    (hQ : ∀ result w', Synchronized cron pass w.scheduler w'.scheduler result →
      Progress workerId w w' (closing workerId pass result) → Q () w')
    (hE : ∀ exc w' result, pass.Meets exc → exc.isException = false →
      Broken workerId w w' (closing workerId pass result) → E exc w') :
    wp (syncAndRecord cron misfireGraceSeconds workerId pass) Q E w := by
  rw [syncAndRecord, wp_bind]
  refine syncRulesOnce_wp hremembers (fun result t hsync => ?_) fun exc t hmeets hbase => ?_
  · rw [wp_bind, wp_happens]
    have hprogress : Progress workerId w
        { w with scheduler := t, events := w.events ++ [.sync result] } [.sync result] :=
      ⟨⟨rfl, rfl⟩, rfl⟩
    cases workerId with
    | none => exact hQ result _ hsync hprogress
    | some workerId =>
        simp only []
        rw [recordSyncHeartbeat, wp_bind, wp_happens]
        refine record_wp ?_ fun exc hexc hbase => ?_
        · exact hQ result _ hsync (hprogress.trans progress_heartbeat)
        · exact hE exc _ result (.inr (.inr (.inr hexc))) hbase
            ⟨_, hprogress.trans progress_heartbeat, List.prefix_rfl, settled_snoc _ nofun⟩
  · exact hE exc _ { ok := true } hmeets hbase
      ⟨[], ⟨⟨(List.append_nil _).symm, rfl⟩, rfl⟩, List.nil_prefix, settled_nil⟩

/-! ## The loop -/

theorem remembers_dropped {s : Scheduler.State τ} (dropped : List String)
    (hremembers : Remembers cron s) :
    Remembers cron { s with jobs := dropped.foldl (fun jobs id => jobs.erase id) s.jobs } := by
  induction dropped generalizing s with
  | nil => exact hremembers
  | cons id dropped ih =>
      have hstep : step cron 0 s (.drop id) = some { s with jobs := s.jobs.erase id } := rfl
      exact ih (step_remembers hremembers hstep)

section

variable [LinearOrder T] {after : T → T} {nextCleanupAt : T}

/-- A reading that asks for a cleanup has it after it. -/
theorem awake_cleanup {now : T} :
    Awake ([.sleep] ++ (.clock now (nextCleanupAt ≤ now) ::
      if nextCleanupAt ≤ now then [.cleanup] else [])) := by
  by_cases hdue : nextCleanupAt ≤ now
  · rw [if_pos hdue, decide_eq_true hdue]
    exact ⟨settled_snoc [.sleep, .clock now true] nofun, nofun⟩
  · rw [if_neg hdue, decide_eq_false hdue]
    exact ⟨settled_snoc _ nofun, nofun⟩

/-- `next_cleanup_at` after a pass. -/
def deadline (after : T → T) (nextCleanupAt now : T) : T :=
  if nextCleanupAt ≤ now then after now else nextCleanupAt

def turnTrace (workerId : Option String) (nextCleanupAt : T) (pass : Pass τ T)
    (result : RuleSyncResult) : List (Event T) :=
  [.sleep] ++ (.clock pass.monotonic (nextCleanupAt ≤ pass.monotonic) ::
    if nextCleanupAt ≤ pass.monotonic then [.cleanup] else []) ++ closing workerId pass result

def turnsTrace (after : T → T) (workerId : Option String) :
    T → List (Pass τ T × RuleSyncResult) → List (Event T)
  | _, [] => []
  | nextCleanupAt, (pass, result) :: rounds =>
      turnTrace workerId nextCleanupAt pass result ++
        turnsTrace after workerId (deadline after nextCleanupAt pass.monotonic) rounds

theorem awake_turnTrace {result : RuleSyncResult} :
    Awake (turnTrace workerId nextCleanupAt pass result) :=
  awake_cleanup.append awake_closing

theorem cleanupWhenDue_wp (workerId : Option String) {Q : T → World τ T → Prop}
    {E : PyExc → World τ T → Prop} {now : T}
    {cleanup : Option PyExc}
    (hQ : ∀ w', Progress workerId w w' (.clock now (nextCleanupAt ≤ now) ::
        if nextCleanupAt ≤ now then [.cleanup] else []) →
      w'.scheduler = w.scheduler → Q (deadline after nextCleanupAt now) w')
    (hE : ∀ exc w', cleanup = some exc → exc.isException = false →
      Progress workerId w w' (.clock now (nextCleanupAt ≤ now) ::
        if nextCleanupAt ≤ now then [.cleanup] else []) → E exc w') :
    wp (cleanupWhenDue after nextCleanupAt now cleanup) Q E w := by
  unfold cleanupWhenDue
  by_cases hdue : nextCleanupAt ≤ now
  · have hcleaned : Progress workerId w
        { w with
          events := w.events ++ [.clock now (nextCleanupAt ≤ now)] ++ [.cleanup] }
        (.clock now (nextCleanupAt ≤ now) :: if nextCleanupAt ≤ now then [.cleanup] else []) := by
      rw [if_pos hdue, List.append_assoc]
      exact ⟨⟨rfl, rfl⟩, rfl⟩
    simp only [if_pos hdue, wp_bind, wp_happens]
    refine cleanupLogsOnce_wp ?_ fun exc hexc hbase => hE exc _ hexc hbase hcleaned
    have hdone := hQ _ hcleaned rfl
    rw [deadline, if_pos hdue] at hdone
    exact hdone
  · simp only [if_neg hdue, wp_bind, wp_happens]
    have hdone := hQ { w with events := w.events ++ [.clock now (nextCleanupAt ≤ now)] }
      (by rw [if_neg hdue]; exact ⟨⟨rfl, rfl⟩, rfl⟩) rfl
    rw [deadline, if_neg hdue] at hdone
    exact hdone

theorem turn_wp {Q : T → World τ T → Prop} {E : PyExc → World τ T → Prop}
    (hremembers : Remembers cron w.scheduler)
    (hQ : ∀ result s w', Synchronized cron pass s w'.scheduler result →
      Progress workerId w w' (turnTrace workerId nextCleanupAt pass result) →
      Q (deadline after nextCleanupAt pass.monotonic) w')
    (hE : ∀ exc w' result, pass.Escapes exc →
      Broken workerId w w' (turnTrace workerId nextCleanupAt pass result) → E exc w') :
    wp (turn cron misfireGraceSeconds after workerId nextCleanupAt pass) Q E w := by
  unfold turn
  simp only [wp_bind, wp_happens, wp_modify, wp_raises]
  refine ⟨fun _ => ?_, fun exc hexc => ?_⟩
  · have hawake := remembers_dropped pass.dropped hremembers
    have hslept : Progress workerId w
        { w with
          scheduler := { w.scheduler with
            jobs := pass.dropped.foldl (fun jobs id => jobs.erase id) w.scheduler.jobs }
          events := w.events ++ [.sleep] } [.sleep] := ⟨⟨rfl, rfl⟩, rfl⟩
    refine cleanupWhenDue_wp workerId (fun w' hcleaned hscheduler => ?_)
      fun exc w' hexc hbase hcleaned => ?_
    · have hready := hslept.trans hcleaned
      rw [wp_bind]
      refine syncAndRecord_wp (by rw [hscheduler]; exact hawake) (fun result w'' hsync hend => ?_)
        fun exc w'' result hmeets hbase hend => ?_
      · exact hQ result _ w'' hsync (hready.trans hend)
      · exact hE exc w'' result (.inr ⟨hmeets, hbase⟩)
          (hready.broken awake_cleanup hend)
    · exact hE exc w' { ok := true } (.inr ⟨.inl hexc, hbase⟩)
        ⟨_, hslept.trans hcleaned, List.prefix_append _ _, awake_cleanup.settled⟩
  · exact hE exc _ { ok := true } (.inl hexc)
      ⟨[.sleep], ⟨⟨rfl, rfl⟩, rfl⟩, List.prefix_append [Event.sleep] _,
        settled_snoc [] nofun⟩

theorem turns_wp {Q : Ending → World τ T → Prop} {E : PyExc → World τ T → Prop}
    (round : Pass τ T × RuleSyncResult) {s : Scheduler.State τ}
    (hsettled : Synchronized cron round.1 s w.scheduler round.2)
    (hQ : ∀ rounds w', rounds.map Prod.fst = passes →
      Progress workerId w w' (turnsTrace after workerId nextCleanupAt rounds) →
      (∃ s, Synchronized cron (rounds.getLastD round).1 s w'.scheduler
        (rounds.getLastD round).2) → Q .running w')
    (hE : ∀ exc w' (rounds : List (Pass τ T × RuleSyncResult)),
      (∃ pass ∈ passes, pass.Escapes exc) → rounds.map Prod.fst <+: passes →
      Broken workerId w w' (turnsTrace after workerId nextCleanupAt rounds) → E exc w') :
    wp (turns cron misfireGraceSeconds after workerId nextCleanupAt passes) Q E w := by
  induction passes generalizing w nextCleanupAt round s with
  | nil =>
      refine hQ [] w rfl ⟨⟨(List.append_nil _).symm, rfl⟩, rfl⟩ ⟨s, hsettled⟩
  | cons pass passes ih =>
      rw [turns, wp_bind]
      refine turn_wp hsettled.remembers (fun result s' w' hsync hturn => ?_)
        fun exc w' result hescapes hturn => ?_
      · refine ih (pass, result) hsync (fun rounds w'' hpasses hrest hlast => ?_)
          fun exc w'' rounds hescapes hpasses hrest => ?_
        · refine hQ ((pass, result) :: rounds) w'' ?_ (hturn.trans hrest) ?_
          · rw [List.map_cons, hpasses]
          · rw [List.getLastD_cons]
            exact hlast
        · obtain ⟨other, hmem, hother⟩ := hescapes
          exact hE exc w'' ((pass, result) :: rounds)
            ⟨other, List.mem_cons_of_mem pass hmem, hother⟩
            (List.cons_prefix_cons.mpr ⟨rfl, hpasses⟩) (hturn.broken awake_turnTrace hrest)
      · exact hE exc w' [(pass, result)] ⟨pass, List.mem_cons_self, hescapes⟩
          (List.prefix_append [pass] passes) hturn.append

/-- What the process does before it starts the scheduler. -/
def firstTrace (workerId : Option String) (first : Pass τ T) (result : RuleSyncResult) :
    List (Event T) :=
  [.cleanup, .clock first.monotonic true] ++ closing workerId first result

omit [LinearOrder T] in
theorem awake_firstCleanup {now : T} : Awake [.cleanup, .clock now true] := by
  refine ⟨fun before now' h => ?_, nofun⟩
  have hnil : before = [] := List.length_eq_zero_iff.mp (by simpa using congrArg List.length h)
  subst hnil
  cases h

omit [LinearOrder T] in
theorem awake_firstTrace {result : RuleSyncResult} :
    Awake (firstTrace workerId first result ++ [.start]) :=
  (awake_firstCleanup.append awake_closing).append ⟨settled_snoc [] nofun, nofun⟩

omit [LinearOrder T] in
theorem firstPass_wp {Q : Unit → World τ T → Prop} {E : PyExc → World τ T → Prop}
    {startRaises : Option PyExc} (hremembers : Remembers cron w.scheduler)
    (hQ : ∀ result w', startRaises = none →
      Progress workerId w w' (firstTrace workerId first result ++ [.start]) →
      Synchronized cron first w.scheduler w'.scheduler result →
      Q () { w' with schedulerStarted := true })
    (hE : ∀ exc w' result, startRaises = some exc ∨ first.Meets exc ∧ exc.isException = false →
      Broken workerId w w' (firstTrace workerId first result) ∨
        startRaises ≠ none ∧
          Progress workerId w w' (firstTrace workerId first result ++ [.start]) → E exc w') :
    wp (firstPass cron misfireGraceSeconds workerId startRaises first) Q E w := by
  unfold firstPass
  rw [wp_bind]
  refine cleanupLogsOnce_wp ?_ fun exc hexc hbase => ?_
  · rw [wp_bind, wp_happens, wp_bind]
    have hcleaned : Progress workerId w
        { w with events := w.events ++ [.cleanup] ++ [.clock first.monotonic true] }
        [.cleanup, .clock first.monotonic true] := ⟨⟨by rw [List.append_assoc]; rfl, rfl⟩, rfl⟩
    refine syncAndRecord_wp (by exact hremembers) (fun result w' hsync hend => ?_)
      fun exc w' result hmeets hbase hend => ?_
    · have hstart : Progress workerId w' { w' with events := w'.events ++ [.start] } [.start] :=
        ⟨⟨rfl, rfl⟩, rfl⟩
      have hready := (hcleaned.trans hend).trans hstart
      rw [wp_bind, wp_happens, wp_bind, wp_raises]
      refine ⟨fun hnone => hQ result _ hnone hready hsync, fun exc hexc => ?_⟩
      refine hE exc _ result (.inl hexc) (.inr ⟨?_, hready⟩)
      rw [hexc]
      nofun
    · exact hE exc w' result (.inr ⟨hmeets, hbase⟩) 
        (.inl (hcleaned.broken awake_firstCleanup hend))
  · refine hE exc _ { ok := true } (.inr ⟨.inl hexc, hbase⟩) (.inl ?_)
    exact ⟨[.cleanup], ⟨⟨rfl, rfl⟩, rfl⟩, List.prefix_append [Event.cleanup] _,
      settled_snoc [] nofun⟩

/-- The calls of `run_sync_loop`, as long as nothing ends it. -/
def loopTrace (after : T → T) (workerId : Option String) (first : Pass τ T)
    (result : RuleSyncResult) (rounds : List (Pass τ T × RuleSyncResult)) : List (Event T) :=
  firstTrace workerId first result ++ [.start] ++
    turnsTrace after workerId (after first.monotonic) rounds

/-- What can end `run_sync_loop`. -/
def Ends (startRaises : Option PyExc) (first : Pass τ T) (passes : List (Pass τ T))
    (exc : PyExc) : Prop :=
  startRaises = some exc ∨ first.Meets exc ∧ exc.isException = false ∨
    ∃ pass ∈ passes, pass.Escapes exc

/-- The calls that were made when `exc` ended the loop, before it was handled. -/
structure EndedBy (after : T → T) (workerId : Option String) (startRaises : Option PyExc)
    (first : Pass τ T) (passes : List (Pass τ T)) (w w' : World τ T) (exc : PyExc)
    (added : List (Event T)) : Prop where
  ends : Ends startRaises first passes exc
  written : Written workerId w w' added
  trace : ∃ result rounds, added <+: loopTrace after workerId first result rounds
  settled : Settled added
  started : w'.schedulerStarted = true ↔ startRaises = none ∧ .start ∈ added

def shutdownOutcome : Option PyExc → Except PyExc Ending
  | none => .ok .stopped
  | some exc => .error exc

/-- How `run_sync_loop` can go. -/
inductive LoopRun (cron : CronTrigger τ) (after : T → T) (workerId : Option String)
    (startRaises shutdownRaises : Option PyExc) (first : Pass τ T) (passes : List (Pass τ T))
    (w : World τ T) : Except PyExc Ending → World τ T → Prop
  | running {w' : World τ T} {s : Scheduler.State τ} (result : RuleSyncResult)
      (rounds : List (Pass τ T × RuleSyncResult)) :
      startRaises = none → rounds.map Prod.fst = passes →
      Written workerId w w' (loopTrace after workerId first result rounds) →
      Synchronized cron (rounds.getLastD (first, result)).1 s w'.scheduler
        (rounds.getLastD (first, result)).2 →
      LoopRun cron after workerId startRaises shutdownRaises first passes w (.ok .running) w'
  | raised {w' : World τ T} {exc : PyExc} {added : List (Event T)} :
      EndedBy after workerId startRaises first passes w w' exc added →
      isKeyboardInterrupt exc = false →
      LoopRun cron after workerId startRaises shutdownRaises first passes w (.error exc) w'
  | interrupted {w' : World τ T} {exc : PyExc} {added : List (Event T)} :
      EndedBy after workerId startRaises first passes w w' exc added →
      isKeyboardInterrupt exc = true → w'.schedulerStarted = false →
      LoopRun cron after workerId startRaises shutdownRaises first passes w (.ok .stopped) w'
  | shutdown {w' : World τ T} {exc : PyExc} {added : List (Event T)} :
      EndedBy after workerId startRaises first passes w w' exc added →
      isKeyboardInterrupt exc = true → w'.schedulerStarted = true →
      LoopRun cron after workerId startRaises shutdownRaises first passes w
        (shutdownOutcome shutdownRaises)
        { w' with events := w'.events ++ [.shutdown] }

omit [LinearOrder T] in
theorem start_not_mem_firstTrace {result : RuleSyncResult} :
    Event.start ∉ firstTrace workerId first result := by
  cases workerId <;> simp [firstTrace, closing]

theorem handleInterrupt_wp {startRaises shutdownRaises : Option PyExc} {w' : World τ T}
    {exc : PyExc} (added : List (Event T))
    (h : EndedBy after workerId startRaises first passes w w' exc added) :
    wp (handleInterrupt shutdownRaises exc)
      (fun ending t => LoopRun cron after workerId startRaises shutdownRaises first passes w
        (.ok ending) t)
      (fun exc t => LoopRun cron after workerId startRaises shutdownRaises first passes w
        (.error exc) t) w' := by
  unfold handleInterrupt
  by_cases hkeyboard : isKeyboardInterrupt exc = true
  · rw [if_pos hkeyboard, wp_bind, wp_get]
    by_cases hstarted : w'.schedulerStarted = true
    · have hdown : LoopRun cron after workerId startRaises shutdownRaises first passes w
          (shutdownOutcome shutdownRaises) { w' with events := w'.events ++ [.shutdown] } :=
        .shutdown h hkeyboard hstarted
      simp only [if_pos hstarted, wp_bind, wp_happens]
      rw [wp_raises]
      refine ⟨fun hnone => ?_, fun exc' hexc => ?_⟩
      · rw [hnone] at hdown
        rw [hnone]
        exact hdown
      · rw [hexc] at hdown
        rw [hexc]
        exact hdown
    · simp only [if_neg hstarted]
      exact .interrupted h hkeyboard (Bool.eq_false_iff.mpr hstarted)
  · rw [if_neg hkeyboard]
    exact .raised h (Bool.eq_false_iff.mpr hkeyboard)

theorem runSyncLoop_run (misfireGraceSeconds : Int) (after : T → T) (workerId : Option String)
    (startRaises shutdownRaises : Option PyExc) (first : Pass τ T) (passes : List (Pass τ T))
    (hstarted : w.schedulerStarted = false) (hremembers : Remembers cron w.scheduler) :
    LoopRun cron after workerId startRaises shutdownRaises first passes w
      (exec (runSyncLoop cron misfireGraceSeconds after workerId startRaises shutdownRaises first
        passes) w).1
      (exec (runSyncLoop cron misfireGraceSeconds after workerId startRaises shutdownRaises first
        passes) w).2 := by
  refine wp_exec.mp ?_
  rw [runSyncLoop, wp_tryCatch, wp_bind]
  refine firstPass_wp hremembers (fun result w₁ hnone hfirst hsync => ?_)
    fun exc w₁ result hends hfirst => handleInterrupt_wp ?_ ?_
  · refine turns_wp (first, result) hsync (fun rounds w₂ hpasses hturns hlast => ?_)
      fun exc w₂ rounds hescapes _ hturns => ?_
    · obtain ⟨s, hlast⟩ := hlast
      have hbegun : Written workerId w { w₁ with schedulerStarted := true }
          (firstTrace workerId first result ++ [.start]) :=
        ⟨hfirst.events, hfirst.heartbeat⟩
      exact .running result rounds hnone hpasses (hbegun.trans hturns.toWritten) hlast
    · obtain ⟨added, hadded, hprefix, hsettled⟩ := hturns
      have hbegun : Written workerId w { w₁ with schedulerStarted := true }
          (firstTrace workerId first result ++ [.start]) :=
        ⟨hfirst.events, hfirst.heartbeat⟩
      refine handleInterrupt_wp _ ⟨.inr (.inr hescapes), hbegun.trans hadded.toWritten,
        ⟨result, rounds, (List.prefix_append_right_inj _).mpr hprefix⟩,
        awake_firstTrace.settled_append hsettled, ?_⟩
      simp [hadded.started, hnone]
  · exact w₁.events.drop w.events.length
  · have hadded : ∀ {added}, Progress workerId w w₁ added →
        w₁.events.drop w.events.length = added := by
      intro added hprogress
      rw [hprogress.events, List.drop_left]
    have hends' : Ends startRaises first passes exc := by
      rcases hends with hstart | hmeets
      · exact .inl hstart
      · exact .inr (.inl hmeets)
    rcases hfirst with ⟨added, hprogress, hprefix, hsettled⟩ | ⟨hsome, hprogress⟩
    · rw [hadded hprogress]
      refine ⟨hends', hprogress.toWritten, ⟨result, [], ?_⟩, hsettled, ?_⟩
      · rw [loopTrace, List.append_assoc]
        exact hprefix.trans (List.prefix_append _ _)
      · rw [hprogress.started, hstarted]
        refine ⟨nofun, fun h => ?_⟩
        exact absurd (List.IsPrefix.subset hprefix h.2) start_not_mem_firstTrace
    · rw [hadded hprogress]
      refine ⟨hends', hprogress.toWritten, ⟨result, [], List.prefix_append _ _⟩,
        awake_firstTrace.settled, ?_⟩
      rw [hprogress.started, hstarted]
      exact ⟨nofun, fun h => absurd h.1 hsome⟩

end

end EarlyWarning.WorkerLoop
