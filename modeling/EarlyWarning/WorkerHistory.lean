/-
# `WorkerHistory` — what the heartbeat of the worker says of its jobs

A worker is reported ready by a row that its processes share.  `readiness_of_jobs` goes from the
row back to the scheduler: a process that is reported ready by a heartbeat of its own has brought
its jobs in line with the rules.  `history_refines` connects the processes, as `app/worker.py`
runs them, to the steps of `WorkerHealth`.
-/
import EarlyWarning.WorkerTrace
import Mathlib.Data.Int.Order.Basic

namespace EarlyWarning.WorkerLoop

open Lib Scheduler WorkerHealth

variable {τ T : Type} {cron : CronTrigger τ} {misfireGraceSeconds : Int} {pass first : Pass τ T}
  {passes : List (Pass τ T)} {w : World τ T} {workerId : Option String}

/-! ## Readiness and the jobs -/

section

variable [LinearOrder T] {after : T → T} {nextCleanupAt : T} {result : RuleSyncResult}
  {rounds : List (Pass τ T × RuleSyncResult)} {startRaises shutdownRaises : Option PyExc}
  {heartbeat row : Option WorkerHeartbeat} {w₁ : World τ T}

theorem exec_turns_append (later : List (Pass τ T))
    (h : exec (turns cron misfireGraceSeconds after workerId nextCleanupAt passes) w =
      (.ok .running, w₁)) :
    ∃ nextCleanupAt',
      exec (turns cron misfireGraceSeconds after workerId nextCleanupAt (passes ++ later)) w =
        exec (turns cron misfireGraceSeconds after workerId nextCleanupAt' later) w₁ := by
  induction passes generalizing w nextCleanupAt with
  | nil =>
      cases h
      exact ⟨nextCleanupAt, rfl⟩
  | cons pass passes ih =>
      rw [turns, exec_bind] at h
      rw [List.cons_append, turns, exec_bind]
      rcases hturn : exec (turn cron misfireGraceSeconds after workerId nextCleanupAt pass) w with
        ⟨_ | next, w'⟩
      · rw [hturn] at h
        cases h
      · rw [hturn] at h
        exact ih h

/-- Passes that commit no heartbeat leave the row as it is. -/
theorem foldl_rowAfter_uncommitted {added : List (Event T)}
    (hpasses : ∀ pass ∈ rounds.map Prod.fst, pass.record.committed = false)
    (hadded : added <+: turnsTrace after workerId nextCleanupAt rounds) :
    added.foldl (rowAfter workerId) row = row := by
  have hevents : ∀ event ∈ turnsTrace after workerId nextCleanupAt rounds,
      ∀ row, rowAfter workerId row event = row := by
    clear hadded
    induction rounds generalizing nextCleanupAt with
    | nil => exact fun _ h => absurd h List.not_mem_nil
    | cons round rounds ih =>
        obtain ⟨pass, result⟩ := round
        intro event hevent row
        rw [turnsTrace, List.mem_append] at hevent
        rcases hevent with hturn | hrest
        · have hcommitted := hpasses pass List.mem_cons_self
          unfold turnTrace closing at hturn
          rw [hcommitted] at hturn
          cases event with
          | heartbeat result now committed =>
              cases committed with
              | false => rfl
              | true => exfalso; cases workerId <;> split at hturn <;> simp at hturn
          | startHeartbeat => exfalso; cases workerId <;> split at hturn <;> simp at hturn
          | _ => rfl
        · exact ih (fun pass hpass => hpasses pass (List.mem_cons_of_mem _ hpass)) event hrest row
  have hmem := fun event h => hevents event (hadded.subset h)
  clear hadded
  induction added with
  | nil => rfl
  | cons event added ih =>
      rw [List.foldl_cons, hmem event List.mem_cons_self]
      exact ih fun event h => hmem event (List.mem_cons_of_mem _ h)

end

section

variable [LinearOrder T] {after : T → T} {recording : Recording}
  {startRaises shutdownRaises : Option PyExc} {heartbeat : Option WorkerHeartbeat}
  {w₁ : World τ T} {later : List (Pass τ T)}

omit [LinearOrder T] in
theorem handleInterrupt_not_running (exc : PyExc) :
    exec (handleInterrupt shutdownRaises exc) w ≠ (.ok .running, w₁) := by
  have hnot : wp (handleInterrupt shutdownRaises exc)
      (fun ending _ => ending ≠ .running) (fun _ _ => True) w := by
    unfold handleInterrupt
    split
    · rw [wp_bind, wp_get]
      split
      · rw [wp_bind, wp_happens, wp_bind, wp_raises]
        exact ⟨fun _ => by nofun, fun _ _ => trivial⟩
      · nofun
    · trivial
  unfold wp at hnot
  intro heq
  rw [heq] at hnot
  exact hnot rfl

/-- A loop that still runs goes on from where it is. -/
theorem exec_runSyncLoop_append (later : List (Pass τ T))
    (h : exec (runSyncLoop cron misfireGraceSeconds after workerId startRaises shutdownRaises first
      passes) w = (.ok .running, w₁)) :
    ∃ nextCleanupAt,
      exec (runSyncLoop cron misfireGraceSeconds after workerId startRaises shutdownRaises first
        (passes ++ later)) w =
      exec (tryCatch (turns cron misfireGraceSeconds after workerId nextCleanupAt later)
        (handleInterrupt shutdownRaises)) w₁ := by
  rw [runSyncLoop, exec_tryCatch, exec_bind] at h
  simp only [runSyncLoop, exec_tryCatch, exec_bind]
  rcases hfirst : exec (firstPass cron misfireGraceSeconds workerId startRaises first) w with
    ⟨exc | _, w'⟩
  · rw [hfirst] at h
    exact absurd h (handleInterrupt_not_running exc)
  · rw [hfirst] at h
    rcases hturns : exec (turns cron misfireGraceSeconds after workerId
      (after first.monotonic) passes) w' with ⟨exc | ending, w''⟩
    · simp only [hturns] at h
      exact absurd h (handleInterrupt_not_running exc)
    · simp only [hturns] at h
      cases h
      obtain ⟨nextCleanupAt, happend⟩ := exec_turns_append later hturns
      refine ⟨nextCleanupAt, ?_⟩
      simp only [happend]

/-- Passes that commit no heartbeat leave the row as it is, however they end. -/
theorem heartbeat_uncommitted {nextCleanupAt : T} (round : Pass τ T × RuleSyncResult)
    {s : Scheduler.State τ} (hsettled : Synchronized cron round.1 s w.scheduler round.2)
    (hlater : ∀ pass ∈ later, pass.record.committed = false) :
    (exec (tryCatch (turns cron misfireGraceSeconds after workerId nextCleanupAt later)
      (handleInterrupt shutdownRaises)) w).2.heartbeat = w.heartbeat := by
  refine wp_state (P := fun w' : World τ T => w'.heartbeat = w.heartbeat) ?_
  rw [wp_tryCatch]
  have huncommitted : ∀ {rounds : List (Pass τ T × RuleSyncResult)},
      rounds.map Prod.fst <+: later →
      ∀ pass ∈ rounds.map Prod.fst, pass.record.committed = false :=
    fun hprefix pass hpass => hlater pass (List.IsPrefix.subset hprefix hpass)
  refine turns_wp round hsettled (fun rounds w' hpasses hprogress _ => ?_)
    fun exc w' rounds _ hpasses hbroken => ?_
  · rw [hprogress.heartbeat]
    exact foldl_rowAfter_uncommitted (huncommitted (hpasses ▸ List.prefix_rfl)) List.prefix_rfl
  · obtain ⟨added, hprogress, hprefix, -⟩ := hbroken
    have hsame : w'.heartbeat = w.heartbeat := by
      rw [hprogress.heartbeat]
      exact foldl_rowAfter_uncommitted (huncommitted hpasses) hprefix
    unfold handleInterrupt
    split
    · rw [wp_bind, wp_get]
      split
      · rw [wp_bind, wp_happens, wp_bind, wp_raises]
        exact ⟨fun _ => hsame, fun _ _ => hsame⟩
      · exact hsame
    · exact hsame

/-- `_record_start_heartbeat` is logged, or ends the process. -/
theorem exec_main (cron : CronTrigger τ) (misfireGraceSeconds : Int) (after : T → T)
    (workerId : String)
    (recording : Recording) (startRaises shutdownRaises : Option PyExc) (first : Pass τ T)
    (heartbeat : Option WorkerHeartbeat) :
    ∃ w₀ : World τ T, Progress (some workerId) (boot cron heartbeat) w₀
        [.startHeartbeat recording.now recording.committed] ∧
      ((∃ exc, recording.raised = some exc ∧ exc.isException = false ∧ ∀ passes,
        exec (main cron misfireGraceSeconds after workerId recording startRaises shutdownRaises
          first passes) (boot cron heartbeat) = (.error exc, w₀)) ∨
      ∀ passes, exec (main cron misfireGraceSeconds after workerId recording startRaises
          shutdownRaises first passes) (boot cron heartbeat) =
        exec (runSyncLoop cron misfireGraceSeconds after (some workerId) startRaises shutdownRaises
          first passes) { w₀ with scheduler := State.init cron .empty }) := by
  have hstart : wp (recordStartHeartbeat recording workerId)
      (fun _ w₀ => Progress (some workerId) (boot cron heartbeat) w₀
        [.startHeartbeat recording.now recording.committed])
      (fun exc w₀ => (recording.raised = some exc ∧ exc.isException = false) ∧
        Progress (some workerId) (boot cron heartbeat) w₀
          [.startHeartbeat recording.now recording.committed])
      (boot (T := T) cron heartbeat) := by
    have hprogress : Progress (some workerId) (boot (T := T) cron heartbeat)
        { boot (T := T) cron heartbeat with
          heartbeat :=
            if recording.committed then
              some (recordWorkerStart heartbeat workerId recording.now)
            else heartbeat
          events := [.startHeartbeat recording.now recording.committed] }
        [.startHeartbeat recording.now recording.committed] := by
      cases hcommitted : recording.committed with
      | true => exact ⟨⟨rfl, rfl⟩, rfl⟩
      | false => exact ⟨⟨rfl, rfl⟩, rfl⟩
    rw [recordStartHeartbeat, wp_bind, wp_happens]
    exact record_wp hprogress fun exc hexc hbase => ⟨⟨hexc, hbase⟩, hprogress⟩
  unfold wp at hstart
  rcases hrecord : exec (recordStartHeartbeat (τ := τ) (T := T) recording workerId)
    (boot cron heartbeat) with ⟨exc | _, w₀⟩
  · rw [hrecord] at hstart
    refine ⟨w₀, hstart.2, .inl ⟨exc, hstart.1.1, hstart.1.2, fun passes => ?_⟩⟩
    rw [main, exec_bind, hrecord]
  · rw [hrecord] at hstart
    refine ⟨w₀, hstart, .inr fun passes => ?_⟩
    rw [main, exec_bind, hrecord]
    rfl

end

section

variable [LinearOrder T] {after : T → T} {recording : Recording} {result : RuleSyncResult}
  {rounds : List (Pass τ T × RuleSyncResult)} {round : Pass τ T × RuleSyncResult}
  {startRaises shutdownRaises : Option PyExc} {heartbeat row : Option WorkerHeartbeat}
  {w₁ : World τ T} {workerId : String} {later : List (Pass τ T)} {nextCleanupAt : T}

/-- The row is the one that this round has written, if it has. -/
def WrittenBy (workerId : String) (row : Option WorkerHeartbeat)
    (round : Pass τ T × RuleSyncResult) : Prop :=
  round.1.record.committed = true → ∃ row', row =
    some (recordWorkerSync row' workerId round.2.ok round.2.error round.1.record.now)

omit [LinearOrder T] in
theorem writtenBy_closing (pass : Pass τ T) (result : RuleSyncResult) : WrittenBy workerId
    ((closing (some workerId) pass result).foldl (rowAfter (some workerId)) row)
    (pass, result) := by
  intro hcommitted
  refine ⟨row, ?_⟩
  unfold closing
  rw [hcommitted]
  rfl

theorem writtenBy_turnsTrace (hrow : WrittenBy workerId row round) :
    WrittenBy workerId ((turnsTrace after (some workerId) nextCleanupAt rounds).foldl
      (rowAfter (some workerId)) row) (rounds.getLastD round) := by
  induction rounds generalizing row round nextCleanupAt with
  | nil => exact hrow
  | cons next rounds ih =>
      obtain ⟨pass, result⟩ := next
      rw [turnsTrace, List.foldl_append, List.getLastD_cons]
      refine ih ?_
      rw [turnTrace, List.foldl_append]
      exact writtenBy_closing pass result

theorem writtenBy_loopTrace (workerId : String) (after : T → T) (first : Pass τ T)
    (result : RuleSyncResult) (rounds : List (Pass τ T × RuleSyncResult))
    (row : Option WorkerHeartbeat) : WrittenBy workerId
    ((loopTrace after (some workerId) first result rounds).foldl (rowAfter (some workerId)) row)
    (rounds.getLastD (first, result)) := by
  rw [loopTrace, List.foldl_append]
  refine writtenBy_turnsTrace ?_
  rw [List.foldl_append, firstTrace, List.foldl_append]
  exact writtenBy_closing first result

/-- The scheduler and the row, when the loop still runs. -/
theorem loop_settled (hstarted : w.schedulerStarted = false)
    (hremembers : Remembers cron w.scheduler)
    (h : exec (runSyncLoop cron misfireGraceSeconds after (some workerId) startRaises shutdownRaises
      first passes) w = (.ok .running, w₁)) :
    ∃ result s, Synchronized cron (passes.getLastD first) s w₁.scheduler result ∧
      WrittenBy workerId w₁.heartbeat (passes.getLastD first, result) := by
  have hrun := runSyncLoop_run misfireGraceSeconds after (some workerId) startRaises shutdownRaises
    first passes hstarted hremembers
  rw [h] at hrun
  generalize houtcome : (Except.ok Ending.running : Except PyExc Ending) = outcome at hrun
  cases hrun with
  | @running _ s result rounds _ hpasses hwritten hsync =>
      have hlast : (rounds.getLastD (first, result)).1 = passes.getLastD first := by
        rw [← hpasses]
        exact List.getLastD_map.symm
      refine ⟨(rounds.getLastD (first, result)).2, s, hlast ▸ hsync, ?_⟩
      have hrow := writtenBy_loopTrace workerId after first result rounds w.heartbeat
      rw [hwritten.heartbeat, ← hlast]
      exact hrow
  | raised => cases houtcome
  | interrupted => cases houtcome
  | shutdown => cases shutdownRaises <;> cases houtcome

/-- **What readiness says of the jobs.**  While a process has recorded no heartbeat since, it is
reported ready only when that heartbeat is recent and the synchronization before it has brought
the jobs in line with the rules that it read; and when nothing has failed there, it is reported
ready for as long as the heartbeat is recent. -/
theorem readiness_of_jobs
    (hrun : exec (main cron misfireGraceSeconds after workerId recording startRaises shutdownRaises
      first passes) (boot cron heartbeat) = (.ok .running, w₁))
    (hcommitted : (passes.getLastD first).record.committed = true)
    (hlater : ∀ pass ∈ later, pass.record.committed = false)
    (database : Database) (now : DateTime) (heartbeatTimeoutSeconds : Int) :
    let last := passes.getLastD first
    let recent := now - last.record.now ≤ heartbeatTimeoutSeconds * DateTime.second
    let ready := ∃ result, checkReadiness database
      (exec (main cron misfireGraceSeconds after workerId recording startRaises shutdownRaises
        first (passes ++ later)) (boot cron heartbeat)).2.heartbeat now heartbeatTimeoutSeconds =
        .ok result ∧ result.ready = true
    (ready → recent ∧ ∃ rows, last.rules = .ok rows ∧
      ∀ n, InDesiredState cron rows w₁.scheduler.jobs n) ∧
    (Available database → recent → (∃ rows, last.rules = .ok rows) →
      (∀ c, last.fails c = false) → ready) := by
  intro last recent ready
  obtain ⟨w₀, hprogress, ⟨exc, -, -, hraised⟩ | hloop⟩ := exec_main cron
    misfireGraceSeconds after workerId recording startRaises shutdownRaises first heartbeat
  · rw [hraised] at hrun
    cases hrun
  rw [hloop] at hrun
  obtain ⟨result, s, hsync, hwritten⟩ := loop_settled
    (w := { w₀ with scheduler := State.init cron .empty }) hprogress.started
    (remembers_boot (T := T) heartbeat) hrun
  obtain ⟨row, hrow⟩ := hwritten hcommitted
  obtain ⟨nextCleanupAt, happend⟩ := exec_runSyncLoop_append later hrun
  have hsame : (exec (main cron misfireGraceSeconds after workerId recording startRaises
      shutdownRaises first (passes ++ later)) (boot cron heartbeat)).2.heartbeat =
      w₁.heartbeat := by
    rw [hloop, happend]
    exact heartbeat_uncommitted (last, result) hsync hlater
  have hready : ready ↔ Available database ∧ recent ∧ result.ok = true := by
    have hseen : (recordWorkerSync row workerId result.ok result.error last.record.now).lastSeenAt =
        last.record.now := by
      cases row <;> rfl
    have hok : (recordWorkerSync row workerId result.ok result.error last.record.now).lastSyncOk =
        result.ok := by
      cases row <;> rfl
    change (∃ result, _ ∧ _) ↔ _
    rw [hsame, checkReadiness_ready, hrow]
    constructor
    · rintro ⟨havailable, row', heq, hrecent, hrowok⟩
      have hseen' : row'.lastSeenAt = last.record.now := by
        rw [← Option.some.inj heq]
        exact hseen
      have hok' : row'.lastSyncOk = result.ok := by
        rw [← Option.some.inj heq]
        exact hok
      rw [hseen'] at hrecent
      exact ⟨havailable, hrecent, hok'.symm.trans hrowok⟩
    · rintro ⟨havailable, hrecent, hresult⟩
      refine ⟨havailable, _, rfl, ?_, hok.trans hresult⟩
      rw [hseen]
      exact hrecent
  rw [hready]
  constructor
  · rintro ⟨-, hrecent, hok⟩
    exact ⟨hrecent, hsync.ok hok⟩
  · rintro havailable hrecent ⟨rows, hrows⟩ hnone
    exact ⟨havailable, hrecent, hsync.healthy rows hrows hnone⟩

end

/-! ## Processes one after the other -/

section

variable [LinearOrder T]

/-- A worker process, with all that its calls meet. -/
structure Process (τ T : Type) where
  workerId : String
  recording : Recording
  startRaises : Option PyExc := none
  shutdownRaises : Option PyExc := none
  first : Pass τ T
  passes : List (Pass τ T)

/-- The process as it is in the end, when the row of the heartbeat was `heartbeat` before. -/
def Process.ended (cron : CronTrigger τ) (misfireGraceSeconds : Int) (after : T → T)
    (process : Process τ T) (heartbeat : Option WorkerHeartbeat) : World τ T :=
  (exec (main cron misfireGraceSeconds after process.workerId process.recording
    process.startRaises process.shutdownRaises process.first process.passes)
    (boot cron heartbeat)).2

/-- The processes as they are in the end, the first one first. -/
def history (cron : CronTrigger τ) (misfireGraceSeconds : Int) (after : T → T) :
    Option WorkerHeartbeat → List (Process τ T) → List (String × World τ T)
  | _, [] => []
  | heartbeat, process :: processes =>
      let w := process.ended cron misfireGraceSeconds after heartbeat
      (process.workerId, w) :: history cron misfireGraceSeconds after w.heartbeat processes

/-- The row of the heartbeat after the processes. -/
def lastRow (heartbeat : Option WorkerHeartbeat) (worlds : List (String × World τ T)) :
    Option WorkerHeartbeat :=
  (worlds.map fun entry => entry.2.heartbeat).getLastD heartbeat

/-- When a heartbeat is recorded. -/
def Event.recordedAt : Event T → Option DateTime
  | .startHeartbeat now _ | .heartbeat _ now _ => some now
  | _ => none

/-- What a call is for `WorkerHealth`. -/
def Event.labels : Event T → List WorkerHealth.Label
  | .startHeartbeat now committed => [.tick now, .recordStart committed]
  | .heartbeat result now committed => [.tick now, .sync result.ok result.error committed]
  | _ => []

def processLabels (workerId : String) (events : List (Event T)) : List WorkerHealth.Label :=
  .start workerId :: events.flatMap Event.labels ++ [.crash]

variable {after : T → T} {recording : Recording} {result : RuleSyncResult}
  {rounds : List (Pass τ T × RuleSyncResult)} {startRaises shutdownRaises : Option PyExc}
  {heartbeat row : Option WorkerHeartbeat} {s t : WorkerHealth.State} {id : String}
  {outcome : Except PyExc Ending} {w' : World τ T}

omit [LinearOrder T] in
/-- The calls of the loop are steps of `WorkerHealth` and lead to the same row. -/
theorem fire_events {events : List (Event T)} (hphase : s.phase = .syncing id)
    (hevents : ∀ event ∈ events, ∀ now committed, event ≠ .startHeartbeat now committed)
    (htimes : (s.now :: events.filterMap Event.recordedAt).Pairwise (· ≤ ·)) :
    ∃ t, fire WorkerHealth.step s (events.flatMap Event.labels) = some t ∧
      t.phase = .syncing id ∧ t.heartbeat = events.foldl (rowAfter (some id)) s.heartbeat ∧
      t.now = (events.filterMap Event.recordedAt).getLastD s.now := by
  induction events generalizing s with
  | nil => exact ⟨s, rfl, hphase, rfl, rfl⟩
  | cons event events ih =>
      have hrest := fun event h => hevents event (List.mem_cons_of_mem _ h)
      cases event with
      | heartbeat result now committed =>
          obtain ⟨hnow, hlater⟩ := List.pairwise_cons.mp
            (show (s.now :: now :: events.filterMap Event.recordedAt).Pairwise (· ≤ ·) from htimes)
          have htick : s.now ≤ now := hnow now List.mem_cons_self
          have hlast : ((Event.heartbeat result now committed :: events).filterMap
              Event.recordedAt).getLastD s.now =
              (events.filterMap Event.recordedAt).getLastD now :=
            List.getLastD_cons ..
          rw [hlast]
          clear hlast htimes
          cases committed with
          | true =>
              obtain ⟨t, hfire, ht⟩ := ih (s := State.wrote { s with now }
                (recordWorkerSync s.heartbeat id result.ok result.error now) (.sync result.ok))
                hphase hrest hlater
              refine ⟨t, ?_, ht⟩
              rw [← hfire]
              simp only [List.flatMap_cons, Event.labels, List.cons_append, List.nil_append, fire,
                WorkerHealth.step, if_pos htick, Option.bind_some, hphase, if_true]
          | false =>
              obtain ⟨t, hfire, ht⟩ := ih (s := { s with now }) hphase hrest hlater
              refine ⟨t, ?_, ht⟩
              rw [← hfire]
              simp only [List.flatMap_cons, Event.labels, List.cons_append, List.nil_append, fire,
                WorkerHealth.step, if_pos htick, Option.bind_some, hphase, Bool.false_eq_true,
                if_false]
      | startHeartbeat now committed =>
          exact absurd rfl (hevents _ List.mem_cons_self now committed)
      | _ => exact ih hphase hrest htimes

theorem LoopRun.written
    (h : LoopRun cron after workerId startRaises shutdownRaises first passes w outcome w') :
    ∃ added, Written workerId w w' added ∧
      ∀ event ∈ added, ∀ now committed, event ≠ .startHeartbeat now committed := by
  have hloop : ∀ {added : List (Event T)},
      (∃ result rounds, added <+: loopTrace after workerId first result rounds) →
      ∀ event ∈ added, ∀ now committed, event ≠ .startHeartbeat now committed := by
    rintro added ⟨result, rounds, hprefix⟩ event hevent now committed rfl
    cases inLoop_loopTrace _ (List.IsPrefix.subset hprefix hevent)
  cases h with
  | running result rounds _ _ hwritten _ =>
      exact ⟨_, hwritten, hloop ⟨result, rounds, List.prefix_rfl⟩⟩
  | raised hended _ => exact ⟨_, hended.written, hloop hended.trace⟩
  | interrupted hended _ _ => exact ⟨_, hended.written, hloop hended.trace⟩
  | @shutdown w'' exc added hended _ _ =>
      refine ⟨added ++ [.shutdown], hended.written.trans ⟨rfl, rfl⟩, fun event hevent => ?_⟩
      rcases List.mem_append.mp hevent with hmem | hmem
      · exact hloop hended.trace event hmem
      · rw [List.mem_singleton.mp hmem]
        nofun

/-- The calls of a process, and the row that they leave. -/
theorem main_written (cron : CronTrigger τ) (misfireGraceSeconds : Int) (after : T → T)
    (process : Process τ T)
    (heartbeat : Option WorkerHeartbeat) :
    ∃ added, Written (some process.workerId) (boot cron heartbeat)
        (process.ended cron misfireGraceSeconds after heartbeat)
        (.startHeartbeat process.recording.now process.recording.committed :: added) ∧
      ∀ event ∈ added, ∀ now committed, event ≠ .startHeartbeat now committed := by
  obtain ⟨w₀, hprogress, ⟨exc, -, -, hraised⟩ | hloop⟩ := exec_main cron
    misfireGraceSeconds after process.workerId process.recording process.startRaises
    process.shutdownRaises process.first heartbeat
  · refine ⟨[], ?_, fun _ h => absurd h List.not_mem_nil⟩
    rw [Process.ended, hraised]
    exact hprogress.toWritten
  · obtain ⟨added, hwritten, hadded⟩ := (runSyncLoop_run misfireGraceSeconds after
      (some process.workerId) process.startRaises process.shutdownRaises process.first
      process.passes (w := { w₀ with scheduler := State.init cron .empty })
      hprogress.started (remembers_boot (T := T) heartbeat)).written
    refine ⟨added, ?_, hadded⟩
    rw [Process.ended, hloop]
    exact ⟨by rw [hwritten.events, hprogress.events, List.append_assoc]; rfl,
      by rw [hwritten.heartbeat, hprogress.heartbeat]; rfl⟩

/-- A process is a run of `WorkerHealth`. -/
theorem fire_process (cron : CronTrigger τ) (misfireGraceSeconds : Int) (after : T → T)
    (process : Process τ T)
    (hphase : s.phase = .stopped)
    (htimes : (s.now :: (process.ended cron misfireGraceSeconds after s.heartbeat).events.filterMap
      Event.recordedAt).Pairwise (· ≤ ·)) :
    ∃ t, fire WorkerHealth.step s (processLabels process.workerId
        (process.ended cron misfireGraceSeconds after s.heartbeat).events) = some t ∧
      t.phase = .stopped ∧
      t.heartbeat = (process.ended cron misfireGraceSeconds after s.heartbeat).heartbeat ∧
      t.now = ((process.ended cron misfireGraceSeconds after s.heartbeat).events.filterMap
        Event.recordedAt).getLastD s.now := by
  obtain ⟨added, hwritten, hadded⟩ := main_written cron misfireGraceSeconds after process
    s.heartbeat
  have hevents : (process.ended cron misfireGraceSeconds after s.heartbeat).events =
      .startHeartbeat process.recording.now process.recording.committed :: added :=
    hwritten.events
  rw [hwritten.heartbeat]
  rw [hevents] at htimes ⊢
  obtain ⟨hnow, hlater⟩ := List.pairwise_cons.mp
    (show (s.now :: process.recording.now :: added.filterMap Event.recordedAt).Pairwise (· ≤ ·)
      from htimes)
  have htick : s.now ≤ process.recording.now := hnow _ List.mem_cons_self
  have hlast : ((Event.startHeartbeat process.recording.now process.recording.committed ::
      added).filterMap Event.recordedAt).getLastD s.now =
      (added.filterMap Event.recordedAt).getLastD process.recording.now :=
    List.getLastD_cons ..
  rw [hlast]
  have hcrash : ∀ s₁ : WorkerHealth.State, s₁.phase = .syncing process.workerId →
      s₁.now = process.recording.now →
      ∃ t, fire WorkerHealth.step s₁ (added.flatMap Event.labels ++ [.crash]) = some t ∧
        t.phase = .stopped ∧
        t.heartbeat = added.foldl (rowAfter (some process.workerId)) s₁.heartbeat ∧
        t.now = (added.filterMap Event.recordedAt).getLastD process.recording.now := by
    intro s₁ hsyncing hnow₁
    obtain ⟨t, hfire, hend, hrow, hat⟩ := fire_events hsyncing hadded (hnow₁ ▸ hlater)
    refine ⟨{ t with phase := .stopped }, fire_append.mpr ⟨t, hfire, ?_⟩, rfl, hrow, hnow₁ ▸ hat⟩
    simp only [fire, WorkerHealth.step, hend, Option.bind_some]
  generalize process.recording.committed = committed
  cases committed with
  | true =>
      obtain ⟨t, hfire, ht⟩ := hcrash (State.wrote
        { s with
          now := process.recording.now, phase := .syncing process.workerId
          processes := s.processes + 1 }
        (recordWorkerStart s.heartbeat process.workerId process.recording.now) .start) rfl rfl
      refine ⟨t, ?_, ht⟩
      rw [← hfire]
      simp only [processLabels, List.flatMap_cons, Event.labels, List.cons_append, List.nil_append,
        fire, WorkerHealth.step, hphase, if_pos htick, Option.bind_some, if_true]
  | false =>
      obtain ⟨t, hfire, ht⟩ := hcrash
        { s with
          now := process.recording.now, phase := .syncing process.workerId
          processes := s.processes + 1 } rfl rfl
      refine ⟨t, ?_, ht⟩
      rw [← hfire]
      simp only [processLabels, List.flatMap_cons, Event.labels, List.cons_append, List.nil_append,
        fire, WorkerHealth.step, hphase, if_pos htick, Option.bind_some, Bool.false_eq_true,
        if_false]

theorem pairwise_getLastD {α : Type} {R : α → α → Prop} {l l' : List α} {x : α}
    (h : (x :: l ++ l').Pairwise R) : (l.getLastD x :: l').Pairwise R := by
  induction l generalizing x with
  | nil => exact h
  | cons y l ih =>
      rw [List.getLastD_cons]
      exact ih (List.pairwise_cons.mp h).2

/-- **The heartbeat of any processes.**  Worker processes that run one after the other, whatever
their calls meet and however they end, are a run of `WorkerHealth` with their heartbeats as its
steps, and leave the same row, as long as the clock does not go back. -/
theorem history_refines (cron : CronTrigger τ) (misfireGraceSeconds : Int) (after : T → T)
    (began : DateTime) (processes : List (Process τ T))
    (htimes : (began :: (history cron misfireGraceSeconds after none processes).flatMap fun entry =>
      entry.2.events.filterMap Event.recordedAt).Pairwise (· ≤ ·)) :
    ∃ t, fire WorkerHealth.step (WorkerHealth.start began)
        ((history cron misfireGraceSeconds after none processes).flatMap fun entry =>
          processLabels entry.1 entry.2.events) = some t ∧
      t.heartbeat = lastRow none (history cron misfireGraceSeconds after none processes) := by
  have hrun : ∀ (processes : List (Process τ T)) (s : WorkerHealth.State), s.phase = .stopped →
      (s.now :: (history cron misfireGraceSeconds after s.heartbeat processes).flatMap
        fun entry => entry.2.events.filterMap Event.recordedAt).Pairwise (· ≤ ·) →
      ∃ t, fire WorkerHealth.step s
          ((history cron misfireGraceSeconds after s.heartbeat processes).flatMap
            fun entry => processLabels entry.1 entry.2.events) = some t ∧
        t.heartbeat =
          lastRow s.heartbeat (history cron misfireGraceSeconds after s.heartbeat processes) := by
    intro processes
    induction processes with
    | nil => exact fun s _ _ => ⟨s, rfl, rfl⟩
    | cons process processes ih =>
        intro s hphase htimes
        rw [history, List.flatMap_cons, ← List.cons_append] at htimes
        obtain ⟨t, hfire, hend, hrow, hnow⟩ := fire_process cron misfireGraceSeconds after
          process hphase (List.pairwise_append.mp htimes).1
        have hrest := pairwise_getLastD htimes
        rw [← hrow, ← hnow] at hrest
        obtain ⟨t', hfire', hrow'⟩ := ih t hend hrest
        rw [hrow] at hfire' hrow'
        refine ⟨t', ?_, ?_⟩
        · rw [history, List.flatMap_cons]
          exact fire_append.mpr ⟨t, hfire, hfire'⟩
        · rw [hrow', history, lastRow, lastRow, List.map_cons, List.getLastD_cons]
  exact hrun processes (WorkerHealth.start began) rfl htimes

end

/-! ## A process whose heartbeat fails -/

namespace Sample

def recorded (now : DateTime) : Recording where
  now := now
  committed_of_none _ := rfl

def locked (now : DateTime) : Recording where
  now := now
  committed := false
  raised := some (valueError "database is locked")
  committed_of_none := nofun

def recordedPass (record : Recording) : Pass String Int where
  monotonic := record.now
  cleanup := some (valueError "database is locked")
  rules := .ok [Scheduler.Sample.rule 1 true]
  distinct := by
    rintro _ ⟨⟩
    decide
  order ids := ids
  perm ids := .refl ids
  fails _ := false
  interrupted_base _ _ h := by cases h
  record

def twoPasses (workerId : String) (now : DateTime) : Process String Int where
  workerId
  recording := recorded now
  first := recordedPass (recorded (now + 1000000))
  passes := [recordedPass (locked (now + 2000000))]

end Sample

/-- The third heartbeat cannot be recorded, and the second one is still recent. -/
theorem readiness_of_jobs_locked :
    ∃ result, checkReadiness (.ok requiredTables)
      (exec (main Scheduler.Sample.daily 300 (· + 3600000000) "a" (Sample.recorded 0) none none
        (Sample.recordedPass (Sample.recorded 1000000))
        ([Sample.recordedPass (Sample.recorded 2000000)] ++
          [Sample.recordedPass (Sample.locked 3000000)]))
        (boot Scheduler.Sample.daily none)).2.heartbeat 62000000 60 = .ok result ∧
      result.ready = true := by
  have hrun : (exec (main Scheduler.Sample.daily 300 (· + 3600000000) "a" (Sample.recorded 0) none
      none (Sample.recordedPass (Sample.recorded 1000000))
      [Sample.recordedPass (Sample.recorded 2000000)])
      (boot Scheduler.Sample.daily none)).1 = .ok .running := by decide +kernel
  refine (readiness_of_jobs (Prod.ext hrun rfl) rfl (fun pass hpass => ?_)
    (.ok requiredTables) 62000000 60).2 ⟨_, rfl, by decide⟩ (by decide) ⟨_, rfl⟩ fun _ => rfl
  rw [List.mem_singleton.mp hpass]
  rfl

theorem history_refines_twice :
    ∃ t, fire WorkerHealth.step (WorkerHealth.start 0)
        ((history Scheduler.Sample.daily 300 (· + 3600000000) none
          [Sample.twoPasses "a" 0, Sample.twoPasses "b" 3000000]).flatMap
          fun entry => processLabels entry.1 entry.2.events) = some t ∧
      t.heartbeat = lastRow none (history Scheduler.Sample.daily 300 (· + 3600000000) none
        [Sample.twoPasses "a" 0, Sample.twoPasses "b" 3000000]) :=
  history_refines _ _ _ 0 _ (by decide +kernel)

end EarlyWarning.WorkerLoop
