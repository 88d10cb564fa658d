/-
# `AtomicPersistence` — a database operation may raise anywhere

What is left when an operation of a run raises: the whole result of the last attempt or
nothing of it, the exception of the body before any exception of the release, no row of
the caller's in the lease table once the release has gone through, and nothing of what the
body had pending.  `RunEnv.fault` ranges over all ways to raise, so this covers a fault at
any single operation, and at several.
-/
import EarlyWarning.RetrySafety

namespace EarlyWarning

open Lib

section

variable {libs : Libraries} {env : RunEnv} {ruleId : Nat} {w w' : World} {α : Type}

/-- A `with` block whose lease was acquired ends with the release, and an exception of its
body is raised again whatever the release does. -/
theorem ruleExecutionLease_run (body : Svc α)
    (hlease : exec (enterLease env ruleId) w = (.ok (), w')) :
    (exec (ruleExecutionLease env ruleId body) w).2 =
      (exec (releaseRuleExecutionLease env ruleId) (exec body w').2).2 ∧
    ∀ e, (exec body w').1 = .error e →
      (exec (ruleExecutionLease env ruleId body) w).1 = .error e := by
  unfold ruleExecutionLease
  simp only [exec_bind, hlease, exec_tryCatch]
  rcases exec body w' with ⟨e | a, t⟩
  · unfold releaseAndRaise
    simp only [exec_bind, exec_tryCatch]
    rcases exec (releaseRuleExecutionLease env ruleId) t with ⟨e' | u, t'⟩ <;>
      exact ⟨rfl, fun _ h => h⟩
  · simp only
    rcases exec (releaseRuleExecutionLease env ruleId) t with ⟨e' | u, t'⟩ <;>
      exact ⟨rfl, fun _ h => by cases h⟩

/-- The release touches the leases only, and has removed the caller's row when it returns. -/
theorem release_run (env : RunEnv) (ruleId : Nat) (w : World) :
    let release := exec (releaseRuleExecutionLease env ruleId) w
    (∃ leases, release.2.store.db = w.store.db.withLeases leases) ∧
    (release.1 = .ok () → ∀ row ∈ release.2.store.db.leases,
      row.ruleId = ruleId → row.ownerToken ≠ env.ownerToken) := by
  refine wp_exec (m := releaseRuleExecutionLease env ruleId) (s := w)
    (R := fun out t => (∃ leases, t.store.db = w.store.db.withLeases leases) ∧
      (out = .ok () → ∀ row ∈ t.store.db.leases,
        row.ruleId = ruleId → row.ownerToken ≠ env.ownerToken)).mp ?_
  refine releaseRuleExecutionLease_wp (fun t ht => ⟨⟨_, ht.db⟩, fun _ row hrow hrule => ?_⟩)
    fun e t leases ht => ⟨⟨leases, ht.db⟩, fun h => by cases h⟩
  rw [ht.db] at hrow
  intro htoken
  exact (mem_releaseStatement.mp hrow).2 ⟨hrule, htoken⟩

end

/-- **Atomic persistence.**  For every run that acquired its lease, whatever operations
raise after that:

  * the database has the result of the last attempt, or what it had before;
  * the caller sees the exception of the body;
  * the caller's row is gone from the lease table unless the release raised;
  * the release commits nothing but the leases. -/
theorem atomic_persistence (libs : Libraries) (env : RunEnv) (request : RunRequest) (db : Db)
    {loaded leased : World}
    (hload : exec (loadActiveRule env request.ruleId) (World.start db) = (.ok (), loaded))
    (hlease : exec (enterLease env request.ruleId) loaded = (.ok (), leased)) :
    let body := exec (executeLeasedRule libs env request) leased
    let release := exec (releaseRuleExecutionLease env request.ruleId) body.2
    let run := exec (executeRuleById libs env request) (World.start db)
    (∃ leases, run.2.store.db = db.withLeases leases ∨
      ∃ last final, run.2.attemptsInOrder.getLast? = some last ∧ last.returned = some final ∧
        run.2.store.db = (db.storeResult env request.ruleId request.triggerType
          (reported final run.2.attempts.length)).withLeases leases) ∧
    (∀ e, body.1 = .error e → run.1 = .error e) ∧
    (release.1 = .ok () → ∀ row ∈ run.2.store.db.leases,
      row.ruleId = request.ruleId → row.ownerToken ≠ env.ownerToken) ∧
    (∃ leases, run.2.store.db = body.2.store.db.withLeases leases) := by
  intro body release run
  have hrun : run = exec (ruleExecutionLease env request.ruleId
      (executeLeasedRule libs env request)) loaded := by
    show exec (executeRuleById libs env request) (World.start db) = _
    unfold executeRuleById
    rw [exec_bind, hload]
  obtain ⟨hend, herror⟩ := ruleExecutionLease_run (executeLeasedRule libs env request) hlease
  rw [← hrun] at hend herror
  obtain ⟨hleases, hgone⟩ := release_run env request.ruleId body.2
  refine ⟨?_, herror, fun hok => ?_, ?_⟩
  · have h := executeRuleById_run libs env request db
    change RuleRun libs env request db run.1 run.2 at h
    generalize run = run at h ⊢
    obtain ⟨out, t⟩ := run
    change RuleRun libs env request db out t at h
    cases h with
    | refused e _ leases _ _ hdb => exact ⟨leases, .inl hdb⟩
    | ran rule _ _ after leases _ _ _ hbody hdb =>
        obtain ⟨rfl, -⟩ | ⟨last, earlier, final, hattempts, hloop, rfl, -⟩ := hbody.db_cases
        · exact ⟨leases, .inl hdb⟩
        · exact ⟨leases, .inr ⟨last, final, by simp [World.attemptsInOrder, hattempts],
            hloop.returned.returned, hdb⟩⟩
  · rw [hend]
    exact hgone hok
  · rw [hend]
    exact hleases

/-- The disk is full when the mail log is written, at the eleventh operation of the run. -/
def diskFull : RunEnv :=
  { Sample.env 1000000000000 [Sample.row "a"] with
    fault := fun n => if n = 10 then some ⟨valueError "disk full", false⟩ else none }

/-- A run whose mail log cannot be written raises what the body raised, and has given the
lease back. -/
theorem atomic_persistence_diskFull :
    let run := exec (executeRuleById Sample.libs diskFull Sample.request) (World.start Sample.db)
    run.1 = .error (valueError "disk full") ∧
      ∀ row ∈ run.2.store.db.leases, row.ruleId = 1 → row.ownerToken ≠ "token" := by
  have hload : (exec (loadActiveRule diskFull 1) (World.start Sample.db)).1 = .ok () := by
    decide +kernel
  have hlease : (exec (enterLease diskFull 1)
      (exec (loadActiveRule diskFull 1) (World.start Sample.db)).2).1 = .ok () := by
    decide +kernel
  obtain ⟨-, herror, hgone, -⟩ := atomic_persistence Sample.libs diskFull Sample.request
    Sample.db (Prod.ext hload rfl) (Prod.ext hlease rfl)
  exact ⟨herror _ (by decide +kernel), hgone (by decide +kernel)⟩

end EarlyWarning
