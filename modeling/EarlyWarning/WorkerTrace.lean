/-
# `WorkerTrace` — in which order a worker process makes its calls, and what ends it

`loop_order`: what stands before each call in the trace of `run_sync_loop`, whatever raises and
however often the loop is gone through, and that the logs are cleaned at every reading of the clock
that asks for it.  `loop_outcome`: the loop goes on unless it is interrupted or the scheduler cannot
be started, and shuts down a scheduler that it has started.
-/
import EarlyWarning.Lib.Log
import EarlyWarning.WorkerLoop

namespace EarlyWarning.WorkerLoop

open Lib Scheduler WorkerHealth

variable {τ T : Type} {cron : CronTrigger τ} {pass first : Pass τ T} {passes : List (Pass τ T)}
  {workerId : Option String}

/-! ## The order of the calls -/

/-- A pass ends with its synchronization, or with the heartbeat that reports it. -/
def Event.endsPass (workerId : Option String) : Event T → Bool
  | .sync _ => workerId.isNone
  | .heartbeat .. => workerId.isSome
  | _ => false

/-- What must stand before a call. -/
def Allowed (workerId : Option String) (pre : List (Event T)) (event : Event T) : Prop :=
  .shutdown ∉ pre ∧
    match event with
    | .startHeartbeat .. => pre = []
    | .cleanup => pre = [] ∨ ∃ before now, pre = before ++ [.sleep, .clock now true]
    | .clock _ due => pre = [.cleanup] ∧ due = true ∨ ∃ before, pre = before ++ [.sleep]
    | .sync _ => ∃ before now, pre = [.cleanup, .clock now true] ∨
        pre = before ++ [.sleep, .clock now false] ∨
        pre = before ++ [.sleep, .clock now true, .cleanup]
    | .heartbeat result .. => workerId.isSome = true ∧ ∃ before, pre = before ++ [.sync result]
    | .start => .start ∉ pre ∧ .sleep ∉ pre ∧
        ∃ before last, pre = before ++ [last] ∧ last.endsPass workerId = true
    | .sleep => .start ∈ pre ∧ ∃ before last, pre = before ++ [last] ∧
        (last = .start ∨ last.endsPass workerId = true)
    | .shutdown => .start ∈ pre ∧ Settled pre

section

variable {pre : List (Event T)} {result : RuleSyncResult}

/-- A recorded synchronization that comes after a reading of the clock. -/
theorem justified_closing (hdown : .shutdown ∉ pre)
    (hsync : Allowed workerId pre (.sync result)) :
    Justified (fun more => Allowed workerId (pre ++ more)) (closing workerId pass result) := by
  unfold closing
  rw [justified_cons, List.append_nil]
  refine ⟨hsync, ?_⟩
  cases workerId with
  | none => exact justified_nil
  | some workerId =>
      rw [justified_cons]
      exact ⟨⟨by simpa using hdown, rfl, pre, rfl⟩, justified_nil⟩

/-- After the end of a pass the process can start the scheduler or sleep. -/
theorem closing_ends (workerId : Option String) (pass : Pass τ T) (result : RuleSyncResult)
    (pre : List (Event T)) : ∃ before last,
    pre ++ closing workerId pass result = before ++ [last] ∧ last.endsPass workerId = true := by
  cases workerId with
  | none => exact ⟨pre, .sync result, rfl, rfl⟩
  | some workerId =>
      refine ⟨pre ++ [.sync result],
        .heartbeat result pass.record.now pass.record.committed, ?_, rfl⟩
      rw [List.append_assoc]
      rfl

theorem justified_firstTrace :
    Justified (Allowed workerId) (firstTrace workerId first result ++ [.start]) := by
  rw [firstTrace, justified_append, justified_append, justified_cons, justified_cons,
    justified_cons]
  refine ⟨⟨⟨⟨by simp, .inl rfl⟩, ⟨by simp, .inl ⟨rfl, rfl⟩⟩, justified_nil⟩, ?_⟩, ?_,
    justified_nil⟩
  · exact justified_closing (by simp) ⟨by simp, [], first.monotonic, .inl rfl⟩
  · rw [List.append_nil]
    refine ⟨?_, ?_, ?_, closing_ends _ _ _ _⟩
    all_goals cases workerId <;> simp [closing]

variable [LinearOrder T] {after : T → T} {nextCleanupAt : T}
  {rounds : List (Pass τ T × RuleSyncResult)}

theorem justified_turnTrace (hdown : .shutdown ∉ pre) (hstart : .start ∈ pre)
    (hrest : ∃ before last, pre = before ++ [last] ∧
      (last = .start ∨ last.endsPass workerId = true)) :
    Justified (fun more => Allowed workerId (pre ++ more))
      (turnTrace workerId nextCleanupAt pass result) := by
  rw [turnTrace, justified_append, justified_append, justified_cons, List.append_nil]
  have hclock : Allowed workerId (pre ++ [Event.sleep])
      (.clock pass.monotonic (nextCleanupAt ≤ pass.monotonic)) :=
    ⟨by simpa using hdown, .inr ⟨pre, rfl⟩⟩
  refine ⟨⟨⟨⟨hdown, hstart, hrest⟩, justified_nil⟩, ?_⟩, ?_⟩
  · rw [justified_cons, List.append_nil]
    refine ⟨hclock, ?_⟩
    split
    case isTrue hdue =>
      rw [justified_cons]
      refine ⟨⟨by simpa using hdown, .inr ⟨pre, pass.monotonic, ?_⟩⟩, justified_nil⟩
      rw [decide_eq_true hdue]
      rfl
    case isFalse => exact justified_nil
  · simp only [← List.append_assoc]
    refine justified_closing ?_ ⟨?_, pre, pass.monotonic, .inr ?_⟩
    · split <;> simpa using hdown
    · split <;> simpa using hdown
    · split
      case isTrue hdue => exact .inr (by simp [hdue])
      case isFalse hdue => exact .inl (by simp [hdue])

/-- The loop itself neither records the start nor shuts the scheduler down. -/
def Event.inLoop : Event T → Bool
  | .startHeartbeat .. | .shutdown => false
  | _ => true

omit [LinearOrder T] in
theorem inLoop_firstTrace : ∀ event ∈ firstTrace workerId first result ++ [.start],
    event.inLoop = true := by
  cases workerId <;> simp [firstTrace, closing, Event.inLoop]

theorem inLoop_turnTrace : ∀ event ∈ turnTrace workerId nextCleanupAt pass result,
    event.inLoop = true := by
  unfold turnTrace closing
  cases workerId <;> split <;> simp [Event.inLoop]

theorem inLoop_turnsTrace : ∀ event ∈ turnsTrace after workerId nextCleanupAt rounds,
    event.inLoop = true := by
  induction rounds generalizing nextCleanupAt with
  | nil => exact fun _ h => absurd h List.not_mem_nil
  | cons round rounds ih =>
      rw [turnsTrace]
      intro event hevent
      rcases List.mem_append.mp hevent with hturn | hrest
      · exact inLoop_turnTrace event hturn
      · exact ih event hrest

theorem inLoop_loopTrace : ∀ event ∈ loopTrace after workerId first result rounds,
    event.inLoop = true := by
  intro event hevent
  rcases List.mem_append.mp hevent with hfirst | hturns
  · exact inLoop_firstTrace event hfirst
  · exact inLoop_turnsTrace event hturns

theorem shutdown_not_mem_loopTrace :
    Event.shutdown ∉ loopTrace after workerId first result rounds :=
  fun h => Bool.false_ne_true (inLoop_loopTrace _ h)

theorem justified_turnsTrace (hdown : .shutdown ∉ pre) (hstart : .start ∈ pre)
    (hrest : ∃ before last, pre = before ++ [last] ∧
      (last = .start ∨ last.endsPass workerId = true)) :
    Justified (fun more => Allowed workerId (pre ++ more))
      (turnsTrace after workerId nextCleanupAt rounds) := by
  induction rounds generalizing pre nextCleanupAt with
  | nil => exact justified_nil
  | cons round rounds ih =>
      obtain ⟨pass, result⟩ := round
      rw [turnsTrace, justified_append]
      refine ⟨justified_turnTrace hdown hstart hrest, ?_⟩
      simp only [← List.append_assoc]
      refine ih ?_ (List.mem_append_left _ hstart) ?_
      · rw [List.mem_append, not_or]
        exact ⟨hdown, fun h => Bool.false_ne_true (inLoop_turnTrace _ h)⟩
      · obtain ⟨before, last, heq, hends⟩ := closing_ends workerId pass result
          (pre ++ ([.sleep] ++ _))
        exact ⟨before, last, by rw [← heq, turnTrace, ← List.append_assoc], .inr hends⟩

theorem justified_loopTrace :
    Justified (Allowed workerId) (loopTrace after workerId first result rounds) := by
  rw [loopTrace, justified_append]
  have hdown : Event.shutdown ∉ firstTrace workerId first result ++ [.start] :=
    fun h => Bool.false_ne_true (inLoop_firstTrace _ h)
  exact ⟨justified_firstTrace, justified_turnsTrace hdown (by simp) ⟨_, .start, rfl, .inl rfl⟩⟩

end

/-! ## When the logs are cleaned -/

/-- The last reading of the clock that asked for a cleanup.  The first one comes after a cleanup. -/
def lastDue (pre : List (Event T)) : Option T :=
  (pre.filterMap fun
    | .clock now true => some now
    | _ => none).getLast?

theorem lastDue_append {pre more : List (Event T)} :
    lastDue (pre ++ more) = (lastDue more).or (lastDue pre) := by
  rw [lastDue, List.filterMap_append, List.getLast?_append]
  rfl

section

variable [LinearOrder T] {after : T → T} {nextCleanupAt c : T} {pre : List (Event T)}
  {result : RuleSyncResult} {rounds : List (Pass τ T × RuleSyncResult)}

/-- A reading asks for a cleanup when the interval has passed since the last that did. -/
def Timely (after : T → T) (pre : List (Event T)) (event : Event T) : Prop :=
  ∀ now due, event = .clock now due →
    (due = true ↔ ∀ c, lastDue pre = some c → after c ≤ now)

omit [LinearOrder T] in
theorem lastDue_closing : lastDue (closing workerId pass result) = none := by
  cases workerId <;> rfl

theorem timely_closing : Justified (fun more => Timely after (pre ++ more))
    (closing workerId pass result) := by
  intro before event post h now due hevent
  have hmem : event ∈ closing workerId pass result := by
    rw [h]
    exact List.mem_append_right before List.mem_cons_self
  subst hevent
  cases workerId <;> simp [closing] at hmem

theorem lastDue_turnTrace (workerId : Option String) (after : T → T) (pass : Pass τ T)
    (result : RuleSyncResult) (hlast : lastDue pre = some c) :
    ∃ c', lastDue (pre ++ turnTrace workerId (after c) pass result) = some c' ∧
      deadline after (after c) pass.monotonic = after c' := by
  rw [turnTrace, lastDue_append, lastDue_append, lastDue_append, lastDue_closing,
    hlast, deadline]
  by_cases hdue : after c ≤ pass.monotonic
  · rw [if_pos hdue, if_pos hdue, decide_eq_true hdue]
    exact ⟨pass.monotonic, rfl, rfl⟩
  · rw [if_neg hdue, if_neg hdue, decide_eq_false hdue]
    exact ⟨c, rfl, rfl⟩

theorem timely_turnTrace (hlast : lastDue pre = some c) :
    Justified (fun more => Timely after (pre ++ more))
      (turnTrace workerId (after c) pass result) := by
  rw [turnTrace, justified_append, justified_append, justified_cons, justified_cons]
  refine ⟨⟨⟨(fun now due h => by cases h), justified_nil⟩, ⟨fun now due heq => ?_, ?_⟩⟩, ?_⟩
  · cases heq
    rw [List.append_nil, lastDue_append, hlast, decide_eq_true_eq]
    refine ⟨fun hdue c' hc' => ?_, fun hall => hall c rfl⟩
    cases hc'
    exact hdue
  · split
    case isTrue => exact justified_cons.mpr ⟨(fun now due h => by cases h), justified_nil⟩
    case isFalse => exact justified_nil
  · simp only [← List.append_assoc]
    exact timely_closing

theorem timely_turnsTrace (hlast : lastDue pre = some c) :
    Justified (fun more => Timely after (pre ++ more))
      (turnsTrace after workerId (after c) rounds) := by
  induction rounds generalizing pre c with
  | nil => exact justified_nil
  | cons round rounds ih =>
      obtain ⟨pass, result⟩ := round
      obtain ⟨c', hlast', hdeadline⟩ := lastDue_turnTrace workerId after pass result
        hlast
      rw [turnsTrace, justified_append, hdeadline]
      refine ⟨timely_turnTrace hlast, ?_⟩
      simp only [← List.append_assoc]
      exact ih hlast'

theorem timely_loopTrace :
    Justified (Timely after) (loopTrace after workerId first result rounds) := by
  have hlast : lastDue (firstTrace workerId first result ++ [.start]) =
      some first.monotonic := by
    cases workerId <;> rfl
  rw [loopTrace, justified_append]
  refine ⟨?_, timely_turnsTrace hlast⟩
  rw [firstTrace, justified_append, justified_append, justified_cons, justified_cons]
  refine ⟨⟨⟨(fun now due h => by cases h), fun now due heq => ?_, justified_nil⟩,
    timely_closing⟩, ?_⟩
  · cases heq
    refine ⟨fun _ c hc => ?_, fun _ => rfl⟩
    cases hc
  · exact justified_cons.mpr ⟨(fun now due h => by cases h), justified_nil⟩

end

/-- A reading that asks for a cleanup has it after it. -/
def Cleans (events : List (Event T)) : Prop :=
  ∀ before now later, events = before ++ .sleep :: .clock now true :: later →
    later.head? = some .cleanup

/-- Nothing else is allowed there. -/
theorem cleans_of_allowed {events : List (Event T)} (h : Justified (Allowed workerId) events)
    (hsettled : Settled events) : Cleans events := by
  intro before now later heq
  cases later with
  | nil => exact absurd heq (hsettled before now)
  | cons event later =>
      obtain ⟨-, hallowed⟩ := h (before ++ [.sleep, .clock now true]) event later (by simp [heq])
      have hlast : (before ++ [Event.sleep, .clock now true]).getLast? =
          some (.clock now true) := by simp
      cases event with
      | cleanup => rfl
      | startHeartbeat =>
          rw [hallowed] at hlast
          cases hlast
      | clock =>
          rcases hallowed with ⟨hpre, -⟩ | ⟨before', hpre⟩
          · rw [hpre] at hlast
            cases hlast
          · rw [hpre, List.getLast?_concat] at hlast
            cases hlast
      | sync =>
          obtain ⟨before', now', hpre | hpre | hpre⟩ := hallowed
          · exact absurd hpre.symm (awake_firstCleanup.settled before now)
          · simp [hpre] at hlast
          · simp [hpre] at hlast
      | heartbeat =>
          obtain ⟨-, before', hpre⟩ := hallowed
          rw [hpre, List.getLast?_concat] at hlast
          cases hlast
      | start => exact absurd (by simp) hallowed.2.1
      | sleep =>
          obtain ⟨-, before', last, hpre, hends⟩ := hallowed
          rw [hpre, List.getLast?_concat] at hlast
          cases hlast
          rcases hends with h | h <;> cases h
      | shutdown => exact absurd rfl (hallowed.2 before now)

theorem settled_loopTrace [LinearOrder T] {after : T → T} {result : RuleSyncResult}
    {rounds : List (Pass τ T × RuleSyncResult)} :
    Settled (loopTrace after workerId first result rounds) := by
  have hturns : ∀ {nextCleanupAt : T},
      Settled (turnsTrace after workerId nextCleanupAt rounds) := by
    induction rounds with
    | nil => exact settled_nil
    | cons round rounds ih => exact awake_turnTrace.settled_append ih
  exact awake_firstTrace.settled_append hturns

/-! ## What ends the loop, and in which order it calls -/

/-- The process before `run_sync_loop`, and the row of the heartbeat as it is then. -/
def boot (cron : CronTrigger τ) (heartbeat : Option WorkerHeartbeat) : World τ T where
  scheduler := State.init cron .empty
  heartbeat

theorem remembers_boot (heartbeat : Option WorkerHeartbeat) :
    Remembers cron (boot (T := T) cron heartbeat).scheduler :=
  init_remembers fun _ h => by cases h

section

variable [LinearOrder T] {after : T → T} {result : RuleSyncResult}
  {rounds : List (Pass τ T × RuleSyncResult)} {startRaises shutdownRaises : Option PyExc}
  {outcome : Except PyExc Ending} {w' : World τ T} {heartbeat : Option WorkerHeartbeat}

/-- The trace is a part of the one that nothing ends, and the shutdown. -/
theorem LoopRun.events (h : LoopRun cron after workerId startRaises shutdownRaises first passes
    (boot cron heartbeat) outcome w') :
    ∃ result rounds added, added <+: loopTrace after workerId first result rounds ∧
      Settled added ∧ (w'.events = added ∨ .start ∈ added ∧ w'.events = added ++ [.shutdown]) := by
  cases h with
  | running result rounds _ _ hwritten _ =>
      exact ⟨result, rounds, _, List.prefix_rfl, settled_loopTrace, .inl hwritten.events⟩
  | raised hended _ =>
      obtain ⟨result, rounds, hprefix⟩ := hended.trace
      exact ⟨result, rounds, _, hprefix, hended.settled, .inl hended.written.events⟩
  | interrupted hended _ _ =>
      obtain ⟨result, rounds, hprefix⟩ := hended.trace
      exact ⟨result, rounds, _, hprefix, hended.settled, .inl hended.written.events⟩
  | @shutdown w'' exc added hended _ hstarted =>
      obtain ⟨result, rounds, hprefix⟩ := hended.trace
      refine ⟨result, rounds, added, hprefix, hended.settled,
        .inr ⟨(hended.started.mp hstarted).2, ?_⟩⟩
      exact congrArg (· ++ [Event.shutdown]) hended.written.events

/-- **The order of the calls.**  Whatever raises, and however often the loop is gone through, each
call stands where it must: the first synchronization comes before the scheduler is started, and
it is started once; every heartbeat reports the synchronization just before it; the process
sleeps only after its start or the end of a pass; the logs are cleaned first, and then at exactly
the readings of the clock for which the interval has passed since the last cleanup. -/
theorem loop_order (misfireGraceSeconds : Int) (after : T → T) (workerId : Option String)
    (startRaises shutdownRaises : Option PyExc) (first : Pass τ T) (passes : List (Pass τ T))
    (heartbeat : Option WorkerHeartbeat) :
    let events := (exec (runSyncLoop cron misfireGraceSeconds after workerId startRaises
      shutdownRaises first passes) (boot cron heartbeat)).2.events
    Justified (fun pre event => Allowed workerId pre event ∧ Timely after pre event) events ∧
      Cleans events := by
  intro events
  obtain ⟨result, rounds, added, hprefix, hsettled, hevents⟩ :=
    (runSyncLoop_run misfireGraceSeconds after workerId startRaises shutdownRaises first passes
      (w := boot cron heartbeat) rfl (remembers_boot heartbeat)).events
  have htrace : Justified (fun pre event => Allowed workerId pre event ∧ Timely after pre event)
      added := (justified_loopTrace.and timely_loopTrace).shorter hprefix
  rcases hevents with hevents | ⟨hstart, hevents⟩
  · change events = added at hevents
    rw [hevents]
    exact ⟨htrace, cleans_of_allowed htrace.left hsettled⟩
  · change events = added ++ [.shutdown] at hevents
    have hdown : Event.shutdown ∉ added := fun h =>
      shutdown_not_mem_loopTrace (List.IsPrefix.subset hprefix h)
    have hall : Justified (fun pre event => Allowed workerId pre event ∧ Timely after pre event)
        (added ++ [.shutdown]) := justified_snoc htrace ⟨⟨hdown, hstart, hsettled⟩, nofun⟩
    rw [hevents]
    exact ⟨hall, cleans_of_allowed hall.left (settled_snoc added nofun)⟩

def Event.isSync : Event T → Bool
  | .sync _ => true
  | _ => false

omit [LinearOrder T] in
theorem countP_closing : (closing workerId pass result).countP Event.isSync = 1 := by
  cases workerId <;> rfl

theorem countP_turnsTrace {nextCleanupAt : T} :
    (turnsTrace after workerId nextCleanupAt rounds).countP Event.isSync = rounds.length := by
  induction rounds generalizing nextCleanupAt with
  | nil => rfl
  | cons round rounds ih =>
      obtain ⟨pass, result⟩ := round
      have hturn : (turnTrace workerId nextCleanupAt pass result).countP Event.isSync = 1 := by
        unfold turnTrace
        rw [List.countP_append, List.countP_append, countP_closing]
        split <;> rfl
      rw [turnsTrace, List.countP_append, hturn, ih, List.length_cons, Nat.add_comm]

/-- **What ends the loop.**  No `Exception` of the cleanup, of the database, of the scheduler's
jobs or of the heartbeat does: unless the scheduler fails to start, a call to sleep raises or
something that is no `Exception` is raised, every pass is gone through.  An interrupt shuts the
scheduler down exactly when it has been started. -/
theorem loop_outcome (misfireGraceSeconds : Int) (after : T → T) (workerId : Option String)
    (startRaises shutdownRaises : Option PyExc) (first : Pass τ T) (passes : List (Pass τ T))
    (heartbeat : Option WorkerHeartbeat) :
    let run := exec (runSyncLoop cron misfireGraceSeconds after workerId startRaises
      shutdownRaises first passes) (boot cron heartbeat)
    (run.1 = .ok .running ∧ run.2.events.countP Event.isSync = passes.length + 1 ∧
        .shutdown ∉ run.2.events) ∨
      ∃ exc, Ends startRaises first passes exc ∧
        if isKeyboardInterrupt exc ∧ startRaises = none ∧ .start ∈ run.2.events then
          run.1 = shutdownOutcome shutdownRaises ∧ .shutdown ∈ run.2.events
        else
          run.1 = (if isKeyboardInterrupt exc then .ok .stopped else .error exc) ∧
            .shutdown ∉ run.2.events := by
  intro run
  have hrun := runSyncLoop_run misfireGraceSeconds after workerId startRaises shutdownRaises first
    passes (w := boot cron heartbeat) rfl (remembers_boot heartbeat)
  change LoopRun cron after workerId startRaises shutdownRaises first passes _ run.1 run.2 at hrun
  generalize run.1 = outcome at hrun ⊢
  generalize run.2 = w' at hrun ⊢
  have hdown : ∀ {exc added} {t : World τ T},
      EndedBy after workerId startRaises first passes (boot cron heartbeat) t exc added →
      Event.shutdown ∉ t.events := by
    intro exc added t hended hmem
    obtain ⟨result, rounds, hprefix⟩ := hended.trace
    rw [hended.written.events] at hmem
    exact shutdown_not_mem_loopTrace (List.IsPrefix.subset hprefix hmem)
  have hstarted : ∀ {exc added} {t : World τ T},
      EndedBy after workerId startRaises first passes (boot cron heartbeat) t exc added →
      (t.schedulerStarted = true ↔ startRaises = none ∧ .start ∈ t.events) := by
    intro exc added t hended
    rw [hended.started, hended.written.events]
    rfl
  cases hrun with
  | running result rounds _ hpasses hwritten _ =>
      refine .inl ⟨rfl, ?_, ?_⟩
      · rw [hwritten.events, ← hpasses, List.length_map]
        change (loopTrace after workerId first result rounds).countP Event.isSync = _
        rw [loopTrace, firstTrace, List.countP_append, List.countP_append, List.countP_append,
          countP_closing, countP_turnsTrace, Nat.add_comm]
        rfl
      · rw [hwritten.events]
        exact shutdown_not_mem_loopTrace
  | @raised w' exc added hended hother =>
      refine .inr ⟨exc, hended.ends, ?_⟩
      rw [if_neg (fun h => by rw [hother] at h; cases h.1), hother]
      exact ⟨rfl, hdown hended⟩
  | @interrupted w' exc added hended hkeyboard hnot =>
      refine .inr ⟨exc, hended.ends, ?_⟩
      rw [if_neg, if_pos hkeyboard]
      · exact ⟨rfl, hdown hended⟩
      · rintro ⟨-, h⟩
        rw [(hstarted hended).mpr h] at hnot
        cases hnot
  | @shutdown w'' exc added hended hkeyboard hyes =>
      obtain ⟨hnone, hmem⟩ := (hstarted hended).mp hyes
      refine .inr ⟨exc, hended.ends, ?_⟩
      rw [if_pos ⟨hkeyboard, hnone, List.mem_append_left _ hmem⟩]
      exact ⟨rfl, List.mem_append_right _ List.mem_cons_self⟩

end

end EarlyWarning.WorkerLoop
