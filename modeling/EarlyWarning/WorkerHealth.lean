/-
# `WorkerHealth` — the heartbeat of the worker, and what readiness reads off it

`app/worker_health.py`, `app/health.py` and the order in which `app/worker.py` writes the
heartbeat.  Successive worker processes share one row: a process writes it when it starts and
after each synchronization, any write may fail, and a process may crash at any point.  The row
does not say which of the two wrote it.

A run is a list of labels, and time passes by a label of its own, so a statement about the state
at the end of every run is one about every instant of every history.
-/
import EarlyWarning.Models
import EarlyWarning.Lib.Run

namespace EarlyWarning.WorkerHealth

open Lib

/-! ## The heartbeat row -/

def WORKER_SYNC_FAILURE : String := "Worker 同步失败，请检查数据库连接和调度配置"

/-- A `WorkerHeartbeat`; its id is always 1. -/
structure WorkerHeartbeat where
  workerId : String
  startedAt : DateTime
  lastSeenAt : DateTime
  lastSyncOk : Bool := true
  lastError : String := ""
deriving DecidableEq

/-- `_summarize_error_text` -/
def summarizeErrorText (_error : String) : String := WORKER_SYNC_FAILURE

/-- `record_worker_start`, by the row it commits. -/
def recordWorkerStart (heartbeat : Option WorkerHeartbeat) (workerId : String)
    (timestamp : DateTime) : WorkerHeartbeat :=
  match heartbeat with
  | none => { workerId, startedAt := timestamp, lastSeenAt := timestamp }
  | some heartbeat =>
      { heartbeat with
        workerId, startedAt := timestamp, lastSeenAt := timestamp
        lastSyncOk := true, lastError := "" }

/-- `record_worker_sync` -/
def recordWorkerSync (heartbeat : Option WorkerHeartbeat) (workerId : String) (ok : Bool)
    (error : String) (timestamp : DateTime) : WorkerHeartbeat :=
  let heartbeat : WorkerHeartbeat :=
    match heartbeat with
    | none => { workerId, startedAt := timestamp, lastSeenAt := timestamp }
    | some heartbeat => { heartbeat with workerId, lastSeenAt := timestamp }
  { heartbeat with
    lastSyncOk := ok, lastError := if ok then "" else summarizeErrorText error }

/-! ## Readiness -/

def requiredTables : List String :=
  ["adminuser", "alertrule", "executionlog", "maillog", "workerheartbeat"]

structure ReadinessResult where
  ready : Bool
  components : List (String × String)
deriving DecidableEq

/-- What `check_readiness` meets at the database: it raises in the `try` block, or these are the
names of its tables. -/
abbrev Database := Except PyExc (List String)

/-- `check_readiness` -/
def checkReadiness (database : Database) (heartbeat : Option WorkerHeartbeat) (now : DateTime)
    (heartbeatTimeoutSeconds : Int) : Except PyExc ReadinessResult :=
  match database with
  | .error exc =>
      if exc.isException then
        .ok ⟨false, [("database", "unavailable"), ("worker", "unknown")]⟩
      else
        .error exc
  | .ok tables =>
      if ¬ requiredTables.all (· ∈ tables) then
        .ok ⟨false, [("database", "schema_incomplete"), ("worker", "unknown")]⟩
      else
        match heartbeat with
        | none => .ok ⟨false, [("database", "ready"), ("worker", "missing")]⟩
        | some heartbeat =>
            if heartbeatTimeoutSeconds * DateTime.second < now - heartbeat.lastSeenAt then
              .ok ⟨false, [("database", "ready"), ("worker", "stale")]⟩
            else if ¬ heartbeat.lastSyncOk then
              .ok ⟨false, [("database", "ready"), ("worker", "sync_failed")]⟩
            else
              .ok ⟨true, [("database", "ready"), ("worker", "ready")]⟩

/-- The database answers and has its tables. -/
def Available (database : Database) : Prop :=
  ∃ tables, database = .ok tables ∧ requiredTables.all (· ∈ tables) = true

/-! ## Worker processes -/

inductive Phase
  /-- no process runs -/
  | stopped
  /-- `main` has not yet written its start -/
  | starting (workerId : String)
  /-- `run_sync_loop` -/
  | syncing (workerId : String)
deriving DecidableEq

inductive WriteKind
  | start
  | sync (ok : Bool)
deriving DecidableEq

/-- A write of the heartbeat that did not fail. -/
structure Write where
  /-- which process wrote, counted from 1 -/
  process : Nat
  kind : WriteKind
  writtenAt : DateTime
deriving DecidableEq

structure State where
  now : DateTime
  heartbeat : Option WorkerHeartbeat
  phase : Phase
  /-- the processes started so far; the last of them is the current one -/
  processes : Nat
  /-- the writes of the row, newest first -/
  writes : List Write
deriving DecidableEq

/-- A new database. -/
def start (now : DateTime) : State :=
  { now, heartbeat := none, phase := .stopped, processes := 0, writes := [] }

inductive Label
  /-- a process starts, with a fresh id -/
  | start (workerId : String)
  /-- `_record_start_heartbeat` -/
  | recordStart (recorded : Bool)
  /-- one synchronization and `_record_sync_heartbeat` -/
  | sync (ok : Bool) (error : String) (recorded : Bool)
  /-- the process ends, in whatever way -/
  | crash
  | tick (now : DateTime)
deriving DecidableEq

def State.wrote (s : State) (row : WorkerHeartbeat) (kind : WriteKind) : State :=
  { s with heartbeat := some row, writes := ⟨s.processes, kind, s.now⟩ :: s.writes }

def step (s : State) : Label → Option State
  | .start workerId =>
      match s.phase with
      | .stopped => some { s with phase := .starting workerId, processes := s.processes + 1 }
      | _ => none
  | .recordStart recorded =>
      match s.phase with
      | .starting workerId =>
          let s := { s with phase := .syncing workerId }
          some (if recorded then s.wrote (recordWorkerStart s.heartbeat workerId s.now) .start
            else s)
      | _ => none
  | .sync ok error recorded =>
      match s.phase with
      | .syncing workerId =>
          some (if recorded then
              s.wrote (recordWorkerSync s.heartbeat workerId ok error s.now) (.sync ok)
            else s)
      | _ => none
  | .crash =>
      match s.phase with
      | .stopped => none
      | _ => some { s with phase := .stopped }
  | .tick now => if s.now ≤ now then some { s with now } else none

/-! ## The contract of readiness -/

/-- The synchronizations that the current process has recorded, newest first. -/
def State.syncs (s : State) : List (Bool × DateTime) :=
  s.writes.filterMap fun write =>
    match write.kind with
    | .sync ok => if write.process = s.processes then some (ok, write.writtenAt) else none
    | .start => none

/-- The current process has recorded a synchronization, the last one it recorded succeeded, and
that record is recent enough. -/
def State.Synced (s : State) (heartbeatTimeoutSeconds : Int) : Prop :=
  ∃ writtenAt, s.syncs.head? = some (true, writtenAt) ∧
    s.now - writtenAt ≤ heartbeatTimeoutSeconds * DateTime.second

/-- `check_readiness` does not report ready, or what it reports is so. -/
def TellsTruth (s : State) (database : Database) (heartbeatTimeoutSeconds : Int) : Prop :=
  ∀ result, checkReadiness database s.heartbeat s.now heartbeatTimeoutSeconds = .ok result →
    result.ready = true → s.Synced heartbeatTimeoutSeconds

/-- The last write that did not fail is a synchronization of the current process, or a failed
synchronization, or older than the timeout. -/
def State.LastWriteTells (s : State) (heartbeatTimeoutSeconds : Int) : Prop :=
  ∀ write, s.writes.head? = some write →
    (∃ ok, write.kind = .sync ok ∧ write.process = s.processes) ∨ write.kind = .sync false ∨
      heartbeatTimeoutSeconds * DateTime.second < s.now - write.writtenAt

/-! ## What the row says of the writes -/

/-- The row after a write: when it was seen and whether it says that all is well. -/
structure Tells (row : WorkerHeartbeat) (write : Write) : Prop where
  seen : row.lastSeenAt = write.writtenAt
  ok : row.lastSyncOk = true ↔ write.kind ≠ .sync false

/-- What every run keeps of the row and the writes. -/
structure Inv (s : State) : Prop where
  row : ∀ write, s.writes.head? = some write → ∃ row, s.heartbeat = some row ∧ Tells row write
  missing : s.writes = [] → s.heartbeat = none
  /-- the writes of a process come after those of the processes before it -/
  ordered : ∀ write, s.writes.head? = some write → ∀ other ∈ s.writes,
    other.process ≤ write.process
  current : ∀ write ∈ s.writes, write.process ≤ s.processes
  /-- a process that has not written its start has written nothing -/
  starting : ∀ workerId, s.phase = .starting workerId → ∀ write ∈ s.writes,
    write.process < s.processes
  /-- a process that has written its start last has written nothing else -/
  started : ∀ write, s.writes.head? = some write → write.kind = .start →
    ∀ other ∈ s.writes.tail, other.process < write.process

variable {s t : State} {timestamp : DateTime} {workerId : String}

theorem tells_start (heartbeat : Option WorkerHeartbeat) (process : Nat) :
    Tells (recordWorkerStart heartbeat workerId timestamp) ⟨process, .start, timestamp⟩ := by
  cases heartbeat with
  | none => exact ⟨rfl, by simp [recordWorkerStart]⟩
  | some heartbeat => exact ⟨rfl, by simp [recordWorkerStart]⟩

theorem tells_sync (heartbeat : Option WorkerHeartbeat) (process : Nat) (ok : Bool)
    (error : String) :
    Tells (recordWorkerSync heartbeat workerId ok error timestamp)
      ⟨process, .sync ok, timestamp⟩ := by
  cases heartbeat with
  | none => exact ⟨rfl, by cases ok <;> simp [recordWorkerSync]⟩
  | some heartbeat => exact ⟨rfl, by cases ok <;> simp [recordWorkerSync]⟩

theorem inv_start (now : DateTime) : Inv (start now) where
  row _ h := by cases h
  missing _ := rfl
  ordered _ h := by cases h
  current _ h := by cases h
  starting _ h := by cases h
  started _ h := by cases h

/-- A write by the process that runs `run_sync_loop`. -/
theorem Inv.wrote (h : Inv s) {row : WorkerHeartbeat} {kind : WriteKind}
    (hphase : s.phase = .syncing workerId) (htells : Tells row ⟨s.processes, kind, s.now⟩)
    (hstart : kind = .start → ∀ write ∈ s.writes, write.process < s.processes) :
    Inv (s.wrote row kind) where
  row write hwrite := by
    cases hwrite
    exact ⟨row, rfl, htells⟩
  missing hnil := by cases hnil
  ordered write hwrite other hother := by
    cases hwrite
    obtain rfl | hother := List.mem_cons.mp hother
    · exact Nat.le_refl _
    · exact h.current other hother
  current write hwrite := by
    obtain rfl | hwrite := List.mem_cons.mp hwrite
    · exact Nat.le_refl _
    · exact h.current write hwrite
  starting workerId' hphase' := by
    cases hphase.symm.trans hphase'
  started write hwrite hkind other hother := by
    cases hwrite
    exact hstart hkind other hother

/-- Neither the phase nor the clock matters for what has been written. -/
theorem Inv.moved (h : Inv s) (phase : Phase) (now : DateTime)
    (hphase : ∀ workerId, phase = .starting workerId → s.phase = phase) :
    Inv { s with phase, now } where
  row := h.row
  missing := h.missing
  ordered := h.ordered
  current := h.current
  starting workerId heq := h.starting workerId ((hphase workerId heq).trans heq)
  started := h.started

theorem inv_step (s : State) (label : Label) (t : State) (h : Inv s)
    (hstep : step s label = some t) : Inv t := by
  cases label with
  | start workerId =>
      simp only [step] at hstep
      split at hstep
      case h_2 => cases hstep
      case h_1 =>
        cases hstep
        exact {
          row := h.row
          missing := h.missing
          ordered := h.ordered
          current := fun write hwrite => Nat.le_succ_of_le (h.current write hwrite)
          starting := fun _ _ write hwrite => Nat.lt_succ_of_le (h.current write hwrite)
          started := h.started }
  | recordStart recorded =>
      simp only [step] at hstep
      split at hstep
      case h_2 => cases hstep
      case h_1 workerId hphase =>
        have hmoved : Inv { s with phase := .syncing workerId } :=
          h.moved _ s.now fun _ heq => by cases heq
        cases recorded with
        | false =>
            cases hstep
            exact hmoved
        | true =>
            cases hstep
            exact hmoved.wrote rfl (tells_start _ _) fun _ => h.starting workerId hphase
  | sync ok error recorded =>
      simp only [step] at hstep
      split at hstep
      case h_2 => cases hstep
      case h_1 workerId hphase =>
        cases recorded with
        | false =>
            cases hstep
            exact h
        | true =>
            cases hstep
            exact h.wrote hphase (tells_sync _ _ ok error) fun hkind => by cases hkind
  | crash =>
      simp only [step] at hstep
      split at hstep
      case h_1 => cases hstep
      case h_2 =>
        cases hstep
        exact h.moved _ s.now fun _ heq => by cases heq
  | tick now =>
      simp only [step] at hstep
      split at hstep
      case isTrue =>
        cases hstep
        exact h.moved s.phase now fun _ _ => rfl
      case isFalse => cases hstep

/-! ## When readiness tells the truth -/

variable {database : Database} {heartbeat : Option WorkerHeartbeat} {now : DateTime}
  {heartbeatTimeoutSeconds : Int}

/-- What is reported ready: a row that is recent and says that all is well. -/
theorem checkReadiness_ready :
    (∃ result, checkReadiness database heartbeat now heartbeatTimeoutSeconds = .ok result ∧
      result.ready = true) ↔
    Available database ∧ ∃ row, heartbeat = some row ∧
      now - row.lastSeenAt ≤ heartbeatTimeoutSeconds * DateTime.second ∧
      row.lastSyncOk = true := by
  cases database with
  | error exc =>
      simp only [checkReadiness, Available]
      constructor
      · rintro ⟨result, h, hready⟩
        split at h
        · cases h
          cases hready
        · cases h
      · rintro ⟨⟨tables, h, -⟩, -⟩
        cases h
  | ok tables =>
      by_cases htables : requiredTables.all (· ∈ tables) = true
      · simp only [checkReadiness, Available, htables, not_true, if_false]
        cases heartbeat with
        | none =>
            constructor
            · rintro ⟨result, h, hready⟩
              cases h
              cases hready
            · rintro ⟨-, row, h, -⟩
              cases h
        | some row =>
            simp only []
            constructor
            · rintro ⟨result, h, hready⟩
              split at h
              case isTrue =>
                cases h
                cases hready
              case isFalse hfresh =>
                split at h
                case isTrue =>
                  cases h
                  cases hready
                case isFalse hok =>
                  exact ⟨⟨tables, rfl, htables⟩, row, rfl, Int.not_lt.mp hfresh, not_not.mp hok⟩
            · rintro ⟨-, row', heq, hfresh, hok⟩
              cases heq
              rw [if_neg (Int.not_lt.mpr hfresh), if_neg (not_not.mpr hok)]
              exact ⟨_, rfl, rfl⟩
      · constructor
        · rintro ⟨result, h, hready⟩
          simp only [checkReadiness, htables] at h
          cases h
          cases hready
        · rintro ⟨⟨tables', heq, h⟩, -⟩
          cases heq
          exact absurd h htables

/-- A process that wrote nothing but its start, or nothing, has recorded no synchronization. -/
theorem syncs_eq_nil (h : ∀ write ∈ s.writes, write.process = s.processes →
    write.kind = .start) : s.syncs = [] := by
  rw [State.syncs, List.filterMap_eq_nil_iff]
  intro write hwrite
  split
  case h_1 ok hkind =>
    split
    case isTrue hprocess =>
      rw [h write hwrite hprocess] at hkind
      cases hkind
    case isFalse => rfl
  case h_2 => rfl

/-- When the last write is not a synchronization of the current process, it has recorded none. -/
theorem Inv.syncs_eq_nil (h : Inv s) {write : Write} (hlast : s.writes.head? = some write)
    (hother : ∀ ok, write.kind = .sync ok → write.process ≠ s.processes) : s.syncs = [] := by
  have hmem : write ∈ s.writes := List.mem_of_head? hlast
  refine EarlyWarning.WorkerHealth.syncs_eq_nil fun other hmem' hprocess => ?_
  cases hkind : write.kind with
  | sync ok =>
      have hle := h.ordered write hlast other hmem'
      have hlt := Nat.lt_of_le_of_ne (h.current write hmem) (hother ok hkind)
      omega
  | start =>
      obtain ⟨rest, hwrites⟩ : ∃ rest, s.writes = write :: rest := List.head?_eq_some_iff.mp hlast
      rw [hwrites] at hmem'
      obtain rfl | hmem' := List.mem_cons.mp hmem'
      · exact hkind
      · have hlt := h.started write hlast hkind other (by rw [hwrites]; exact hmem')
        have hle := h.current write hmem
        omega

/-- What the current process recorded last, when it was the last to write. -/
theorem syncs_head {write : Write} {ok : Bool} (hlast : s.writes.head? = some write)
    (hkind : write.kind = .sync ok) (hprocess : write.process = s.processes) :
    s.syncs.head? = some (ok, write.writtenAt) := by
  obtain ⟨rest, hwrites⟩ : ∃ rest, s.writes = write :: rest := List.head?_eq_some_iff.mp hlast
  rw [State.syncs, hwrites, List.filterMap_cons]
  simp only [hkind, hprocess, if_true, List.head?_cons]

theorem tellsTruth_iff (h : Inv s) :
    TellsTruth s database heartbeatTimeoutSeconds ↔
      (Available database → s.LastWriteTells heartbeatTimeoutSeconds) := by
  have hready := @checkReadiness_ready database s.heartbeat s.now heartbeatTimeoutSeconds
  constructor
  · intro htruth havailable write hlast
    obtain ⟨row, hrow, htells⟩ := h.row write hlast
    by_cases hstale : heartbeatTimeoutSeconds * DateTime.second < s.now - write.writtenAt
    · exact .inr (.inr hstale)
    · by_cases hfailed : write.kind = .sync false
      · exact .inr (.inl hfailed)
      · obtain ⟨result, hresult, hok⟩ := hready.mpr
          ⟨havailable, row, hrow, htells.seen ▸ Int.not_lt.mp hstale, htells.ok.mpr hfailed⟩
        obtain ⟨writtenAt, hsync, -⟩ := htruth result hresult hok
        refine .inl ?_
        by_contra hother
        have hnone := h.syncs_eq_nil hlast fun ok hkind hprocess => hother ⟨ok, hkind, hprocess⟩
        rw [hnone] at hsync
        cases hsync
  · intro hlast result hresult hok
    obtain ⟨havailable, row, hrow, hfresh, hrowok⟩ := hready.mp ⟨result, hresult, hok⟩
    obtain ⟨write, hwrite⟩ : ∃ write, s.writes.head? = some write := by
      cases hwrites : s.writes with
      | nil => cases (h.missing hwrites).symm.trans hrow
      | cons write rest => exact ⟨write, rfl⟩
    obtain ⟨row', hrow', htells⟩ := h.row write hwrite
    cases hrow.symm.trans hrow'
    have hnotfailed := htells.ok.mp hrowok
    rw [htells.seen] at hfresh
    obtain ⟨ok, hkind, hprocess⟩ | hfailed | hstale := hlast havailable write hwrite
    · cases ok with
      | false => exact absurd hkind hnotfailed
      | true => exact ⟨write.writtenAt, syncs_head hwrite hkind hprocess, hfresh⟩
    · exact absurd hfailed hnotfailed
    · exact absurd hfresh (Int.not_le.mpr hstale)

/-- **Readiness.**  At the end of every run, what `check_readiness` reports is true exactly when
the last write of the heartbeat that did not fail is a synchronization of the current process,
or a failed one, or too old; or when the database does not answer. -/
theorem readiness_tells_truth {began : DateTime} {run : List Label}
    (hrun : fire step (start began) run = some s) (database : Database)
    (heartbeatTimeoutSeconds : Int) :
    TellsTruth s database heartbeatTimeoutSeconds ↔
      (Available database → s.LastWriteTells heartbeatTimeoutSeconds) :=
  tellsTruth_iff (fire_invariant inv_step (inv_start began) hrun)

/-- A process that has synchronized once. -/
theorem readiness_tells_truth_synced :
    ∃ s, fire step (start 0) [.start "a", .recordStart true, .sync true "" true] = some s ∧
      TellsTruth s (.ok requiredTables) 60 := by
  refine ⟨_, rfl, (@readiness_tells_truth _ 0 [.start "a", .recordStart true, .sync true "" true]
    rfl (.ok requiredTables) 60).mpr fun _ write hlast => ?_⟩
  cases hlast
  exact .inl ⟨true, rfl, rfl⟩

/-- What is reported at the end of a run, and what the current process has recorded by then. -/
def reported (run : List Label) : Option (Bool × List (Bool × DateTime)) :=
  (fire step (start 0) run).bind fun s =>
    (checkReadiness (.ok requiredTables) s.heartbeat s.now 60).toOption.map fun result =>
      (result.ready, s.syncs)

/-- Ready before the first synchronization, after a restart that follows a failed one, and
while a new process whose writes fail has recorded nothing. -/
theorem ready_without_sync :
    reported [.start "a", .recordStart true] = some (true, []) ∧
    reported [.start "a", .recordStart true, .sync false "" true, .crash, .start "b",
      .recordStart true] = some (true, []) ∧
    reported [.start "a", .recordStart true, .sync true "" true, .crash, .start "b",
      .recordStart false] = some (true, []) := by
  decide

end EarlyWarning.WorkerHealth
