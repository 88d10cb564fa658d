/-
# `RetrySafety` — retries repeat no mail and leave one log

The attempts of a run, in the order they were made: all but the last ended in a
retryable result.  So the number of attempts is settled by the first result that is not
retryable, and what is stored is the last attempt's.

That no attempt follows one that reached a recipient (`RepeatsNoMail`) can fail
(`repeated_address_resent`): an address that stands in To and in Cc, and is refused at one of
its places only, has the message, and the mailer reports it refused.  It holds exactly when
the answers of every attempt that another may follow are `Steady` (`retry_safety`).
-/
import EarlyWarning.LogConsistency

namespace EarlyWarning

open Lib

/-- The attempt returned a result that is tried again. -/
def AttemptRecord.retryable (r : AttemptRecord) : Bool :=
  r.returned.any fun attempt => isRetryableResult attempt.result

/-- The attempts of a run, in the order they were made. -/
def World.attemptsInOrder (w : World) : List AttemptRecord := w.attempts.reverse

section

variable {libs : Libraries} {env : RunEnv} {request : RunRequest} {rule : AlertRule} {db : Db}
  {out : Except PyExc ExecutionLog} {attempts : List AttemptRecord} {sleeps : List Rat}
  {after : Db} {last : AttemptRecord} {earlier : List AttemptRecord}
  {attempt : ExecutionAttempt}

/-- No attempt follows one that reached a recipient. -/
def RepeatsNoMail (attempts : List AttemptRecord) : Prop :=
  ∀ before r later, attempts = before ++ r :: later →
    (∃ d ∈ r.handed, d.acceptedBySome = true) → later = []

/-- The answers are steady in every attempt but the last of `total`. -/
def SteadyBefore (total : Nat) (attempts : List AttemptRecord) : Prop :=
  ∀ k r, attempts[k]? = some r → k + 1 < total → r.Steady

theorem AttemptRecord.Retried.retryable {r : AttemptRecord} (h : r.Retried libs db rule) :
    r.retryable = true := by
  obtain ⟨attempt, hret, hretry⟩ := h
  simp [AttemptRecord.retryable, hret.returned, hretry]

/-- Every attempt but the newest was retryable. -/
theorem BodyRun.retried (h : BodyRun libs env request rule db out attempts sleeps after) :
    ∀ r ∈ attempts.tail, r.Retried libs db rule := by
  cases h with
  | interrupted e _ _ _ hretried => exact hretried
  | unsaved e last earlier attempt hend => exact hend.retried
  | saved _ last earlier attempt hend => exact hend.retried

/-- The number of attempts is the bound or the place of the first result that is not
retryable, whichever comes first. -/
theorem LoopEnd.length (h : LoopEnd libs db rule request last earlier attempt) :
    (earlier.reverse ++ [last]).length =
      min (totalAttempts request.maxAttempts)
        ((earlier.reverse ++ [last]).findIdx (fun r => !r.retryable) + 1) := by
  have hnone : earlier.reverse.findIdx (fun r => !r.retryable) = earlier.reverse.length := by
    rw [List.findIdx_eq_length]
    intro r hr
    simp [(h.retried r (List.mem_reverse.mp hr)).retryable]
  have hlast : last.retryable = isRetryableResult attempt.result := by
    simp [AttemptRecord.retryable, h.returned.returned]
  have hbound := h.bound
  rw [List.findIdx_append, hnone, if_neg (Nat.lt_irrefl _), List.length_append,
    List.length_reverse, List.length_singleton]
  by_cases hretry : isRetryableResult attempt.result = true
  · have hstop := h.stop hretry
    simp [List.findIdx_cons, hlast, hretry]
    omega
  · simp [List.findIdx_cons, hlast, hretry]
    omega

/-- When every attempt returned and no pause raised, the loop came to its end. -/
theorem BodyRun.loopEnd (h : BodyRun libs env request rule db out attempts sleeps after)
    (hreturned : ∀ r ∈ attempts, r.returned.isSome = true) (hsleep : ∀ k, env.sleep k = none) :
    ∃ last earlier attempt, attempts = last :: earlier ∧
      LoopEnd libs db rule request last earlier attempt ∧
      sleeps = pauses request.retryDelaySeconds earlier.length := by
  cases h with
  | interrupted e _ _ _ _ _ hraised =>
      obtain ⟨r, hr, hnone⟩ | ⟨k, hk⟩ := hraised
      · have := hreturned r hr
        simp [hnone] at this
      · simp [hsleep k] at hk
  | unsaved e last earlier attempt hend => exact ⟨last, earlier, attempt, rfl, hend, rfl⟩
  | saved _ last earlier attempt hend => exact ⟨last, earlier, attempt, rfl, hend, rfl⟩

/-! ## Mail that is repeated -/

theorem BodyRun.bound (h : BodyRun libs env request rule db out attempts sleeps after) :
    attempts.length ≤ totalAttempts request.maxAttempts := by
  cases h with
  | interrupted e _ _ _ _ hbound => exact hbound
  | unsaved e last earlier attempt hend => exact hend.bound
  | saved _ last earlier attempt hend => exact hend.bound

theorem BodyRun.repeatsNoMail
    (h : BodyRun libs env request rule db out attempts sleeps after)
    (hsteady : SteadyBefore (totalAttempts request.maxAttempts) attempts.reverse) :
    RepeatsNoMail attempts.reverse := by
  intro before r later hsplit haccepted
  by_contra hlater
  have hlength : before.length + (later.length + 1) = attempts.length := by
    have := congrArg List.length hsplit
    simpa using this.symm
  have hr : r.Steady := by
    refine hsteady before.length r (by rw [hsplit]; simp) ?_
    have := List.length_pos_iff.mpr hlater
    have := h.bound
    omega
  -- the attempts are newest first, so the ones after `r` stand before it
  have htail : r ∈ attempts.tail := by
    rw [← List.reverse_reverse attempts, hsplit, List.reverse_append, List.reverse_cons,
      List.append_assoc, List.tail_append_of_ne_nil (by simpa using hlater)]
    exact List.mem_append_right _ List.mem_cons_self
  obtain ⟨d, hd, hsome⟩ := haccepted
  rw [(h.retried r htail).nothing_accepted hr d hd] at hsome
  cases hsome

theorem statusForMailResults_refused {mailResults : List ExecutionMailResult}
    (hne : mailResults ≠ []) (h : ∀ mailResult ∈ mailResults, mailResult.accepted = false) :
    statusForMailResults mailResults = .failed ∧
      successfulCount mailResults < mailResults.length := by
  have hzero : successfulCount mailResults = 0 :=
    List.countP_eq_zero.mpr fun mr hmr => by simp [(Bool.or_eq_false_iff.mp (h mr hmr)).1]
  have hmixed : mailResults.any (fun mr => mr.result.partialSuccess) = false :=
    List.any_eq_false.mpr fun mr hmr => by simp [(Bool.or_eq_false_iff.mp (h mr hmr)).2]
  have hpos := List.length_pos_iff.mpr hne
  have hlt : successfulCount mailResults < mailResults.length := by omega
  rw [statusForMailResults, if_neg (Nat.ne_of_lt hlt), if_pos ⟨hzero, by simp [hmixed]⟩]
  exact ⟨rfl, hlt⟩

/-- Messages that no address has accepted wherever it stands are tried again. -/
theorem Outcome.retryable {r : AttemptRecord} {result : ExecutionResult} (h : Outcome r result)
    (hhanded : r.handed ≠ []) (hnone : ∀ d ∈ r.handed, d.acceptedThroughout = false) :
    isRetryableResult result = true := by
  cases h with
  | failed exc _ _ _ hempty => exact absurd hempty hhanded
  | empty rows _ _ _ hempty => exact absurd hempty hhanded
  | sent rows messages mailResults _ _ _ _ ha =>
      have hrefused : ∀ mailResult ∈ mailResults, mailResult.accepted = false := by
        intro mailResult hm
        have hmem := List.mem_map_of_mem (f := ExecutionMailResult.accepted) hm
        rw [(answered_maps ha).2.2] at hmem
        obtain ⟨d, hd, heq⟩ := List.mem_map.mp hmem
        rw [← heq]
        exact hnone d hd
      have hne : mailResults ≠ [] := fun hnil => by
        rw [hnil, List.forall₂_nil_right_iff] at ha
        exact hhanded ha
      obtain ⟨hstatus, hcount⟩ := statusForMailResults_refused hne hrefused
      simp [isRetryableResult, sentResult, hstatus, hcount]

/-- When the loop came to its end, an attempt with other answers is followed by one more. -/
theorem LoopEnd.repeatsNoMail_steady (h : LoopEnd libs db rule request last earlier attempt)
    (hno : RepeatsNoMail (earlier.reverse ++ [last])) :
    SteadyBefore (totalAttempts request.maxAttempts) (earlier.reverse ++ [last]) := by
  intro k r hr hk haccepted
  by_contra hnone
  obtain ⟨hlt, rfl⟩ := List.getElem?_eq_some_iff.mp hr
  have hsplit : earlier.reverse ++ [last] = (earlier.reverse ++ [last]).take k ++
      (earlier.reverse ++ [last])[k] :: (earlier.reverse ++ [last]).drop (k + 1) := by
    rw [List.getElem_cons_drop, List.take_append_drop]
  have hdrop := hno _ _ _ hsplit haccepted
  have hlast : k = earlier.length := by
    rw [List.drop_eq_nil_iff] at hdrop
    simp only [List.length_append, List.length_reverse, List.length_singleton] at hlt hdrop
    omega
  have heq : (earlier.reverse ++ [last])[k] = last := by simp [hlast]
  rw [heq] at haccepted hnone
  obtain ⟨d, hd, -⟩ := haccepted
  have hretry := h.returned.outcome.retryable (List.ne_nil_of_mem hd) (by simpa using hnone)
  have := h.stop hretry
  omega

end

/-! ## What is stored -/

/-- The database `after` is `db` with one execution log, `log`, whose values, mail logs
and suppression updates are those of the attempt `final`, the `n`-th of its run. -/
structure StoredFrom (db after : Db) (ruleId : Nat) (final : ExecutionAttempt) (n : Nat)
    (log : ExecutionLog) : Prop where
  one_log : after.executionLogs = db.executionLogs ++ [log]
  status : log.status = final.result.status
  row_count : log.rowCount = final.result.rowCount
  email_count : log.emailCount = final.result.mailCount
  error_type : log.errorType = final.result.errorType
  error_message : log.errorMessage = final.result.errorMessage.getD "" ++ retrySuffix final.result n
  mail_logs : ∃ mails, after.mailLogs = db.mailLogs ++ mails ∧
    mails.map (fun m => { m with id := 0 }) = final.result.mailResults.map (buildMailLog log.id)
  suppressions : after.suppressions = (db.storeSuppression ruleId final).suppressions

theorem Db.storeMails_suppressions (executionLogId : Nat)
    (mailResults : List ExecutionMailResult) : ∀ db : Db,
    (db.storeMails executionLogId mailResults).suppressions = db.suppressions := by
  induction mailResults with
  | nil => exact fun _ => rfl
  | cons m ms ih => exact fun db => ih _

/-- The suffix changes nothing the suppression updates look at. -/
theorem Db.storeSuppression_reported (db : Db) (ruleId n : Nat) (attempt : ExecutionAttempt) :
    db.storeSuppression ruleId (reported attempt n) = db.storeSuppression ruleId attempt := by
  unfold Db.storeSuppression reported
  rw [(withExhaustedRetryMessage_fields attempt.result n).1]

theorem Db.storeResult_suppressions (db : Db) (env : RunEnv) (ruleId : Nat)
    (triggerType : TriggerType) (attempt : ExecutionAttempt) :
    (db.storeResult env ruleId triggerType attempt).suppressions =
      (db.storeSuppression ruleId attempt).suppressions := by
  unfold Db.storeResult
  rw [Db.storeMails_suppressions]
  rfl

theorem storedFrom_storeResult {r : AttemptRecord} {final : ExecutionAttempt} (db : Db)
    (env : RunEnv) (ruleId : Nat) (triggerType : TriggerType) (n : Nat)
    (h : Outcome r final.result) :
    StoredFrom db (db.storeResult env ruleId triggerType (reported final n)) ruleId final n
      (db.storedLog env ruleId triggerType (reported final n).result) := by
  obtain ⟨hstatus, hrows, hcount, htype, hmails⟩ :=
    withExhaustedRetryMessage_fields final.result n
  refine
    { one_log := db.storeResult_executionLogs ruleId env triggerType _
      status := hstatus
      row_count := hrows
      email_count := hcount
      error_type := htype
      error_message := h.message n
      mail_logs := ?_
      suppressions := ?_ }
  · obtain ⟨hexec, hmail⟩ := db.storeSuppression_logs ruleId (reported final n)
    obtain ⟨mails, hlogs, hmapped⟩ := Db.storeMails_mailLogs
      (nextId (db.executionLogs.map (·.id))) final.result.mailResults
      ((db.storeSuppression ruleId (reported final n)).write (.insertExecutionLog
        (buildExecutionLog ruleId triggerType (reported final n).result env.startedAt
          env.finishedAt)))
    refine ⟨mails, ?_, hmapped⟩
    have hsame : (reported final n).result.mailResults = final.result.mailResults := hmails
    unfold Db.storeResult
    simp only [hexec, hsame]
    rw [hlogs]
    exact congrArg (· ++ mails) hmail
  · rw [Db.storeResult_suppressions, Db.storeSuppression_reported]

theorem StoredFrom.withLeases {db after : Db} {ruleId n : Nat} {final : ExecutionAttempt}
    {log : ExecutionLog} (h : StoredFrom db after ruleId final n log) (leases : LeaseTable) :
    StoredFrom db (after.withLeases leases) ruleId final n log :=
  ⟨h.one_log, h.status, h.row_count, h.email_count, h.error_type, h.error_message, h.mail_logs,
    h.suppressions⟩

/-- **Retries.**  For every run of `execute_rule_by_id`:

  * when its attempts return and its pauses do not raise, their number is the smaller of
    `max(1, max_attempts)` and the place of the first result that is not retryable, with a
    pause between every two of them when the delay is positive; and no attempt follows one
    that reached a recipient exactly when the answers are steady in all but the last attempt
    that is allowed;
  * with such answers no attempt follows one that reached a recipient, whatever raises;
  * a result that is persisted is one execution log, the last attempt's. -/
theorem retry_safety (libs : Libraries) (env : RunEnv) (request : RunRequest) (db : Db) :
    let run := exec (executeRuleById libs env request) (World.start db)
    let attempts := run.2.attemptsInOrder
    (attempts ≠ [] → (∀ r ∈ attempts, r.returned.isSome = true) → (∀ k, env.sleep k = none) →
      attempts.length = min (totalAttempts request.maxAttempts)
        (attempts.findIdx (fun r => !r.retryable) + 1) ∧
      run.2.sleeps = (if request.retryDelaySeconds > 0 then
        List.replicate (attempts.length - 1) request.retryDelaySeconds else []) ∧
      (RepeatsNoMail attempts ↔
        SteadyBefore (totalAttempts request.maxAttempts) attempts)) ∧
    (SteadyBefore (totalAttempts request.maxAttempts) attempts → RepeatsNoMail attempts) ∧
    (run.2.store.db.executionLogs ≠ db.executionLogs ∨ (∃ log, run.1 = .ok log) →
      ∃ last final log, attempts.getLast? = some last ∧ last.returned = some final ∧
        StoredFrom db run.2.store.db request.ruleId final attempts.length log ∧
        ∀ log', run.1 = .ok log' → log' = log) := by
  have hrun := executeRuleById_run libs env request db
  generalize exec (executeRuleById libs env request) (World.start db) = run at hrun ⊢
  obtain ⟨out, t⟩ := run
  change RuleRun libs env request db out t at hrun
  cases hrun with
  | refused e _ leases hattempts hsleeps hdb =>
      have hempty : t.attemptsInOrder = [] := by simp [World.attemptsInOrder, hattempts]
      refine ⟨fun hne => absurd hempty hne, fun _ before r later h => ?_, fun h => ?_⟩
      · simp [hempty] at h
      · obtain h | ⟨log, h⟩ := h
        · exact absurd (by rw [hdb]; rfl) h
        · cases h
  | ran rule body _ after leases _ _ _ hbody hdb hok =>
      refine ⟨fun _ hreturned hsleep => ?_, hbody.repeatsNoMail, fun h => ?_⟩
      · obtain ⟨last, earlier, attempt, hattempts, hend, hsleeps⟩ :=
          hbody.loopEnd (fun r hr => hreturned r (List.mem_reverse.mpr hr)) hsleep
        have horder : t.attemptsInOrder = earlier.reverse ++ [last] := by
          simp [World.attemptsInOrder, hattempts]
        simp only
        rw [horder]
        refine ⟨hend.length, ?_, hend.repeatsNoMail_steady, fun hsteady => ?_⟩
        · rw [hsleeps, List.length_append, List.length_reverse]
          rfl
        · rw [← horder] at hsteady ⊢
          exact hbody.repeatsNoMail hsteady
      · obtain ⟨rfl, hnolog⟩ | ⟨last, earlier, attempt, hattempts, hend, rfl, hlog⟩ :=
          hbody.db_cases
        · obtain h | ⟨log, h⟩ := h
          · exact absurd (by rw [hdb]; rfl) h
          · exact absurd (hok log h) (hnolog log)
        · have horder : t.attemptsInOrder = earlier.reverse ++ [last] := by
            simp [World.attemptsInOrder, hattempts]
          have hlength : t.attempts.length = t.attemptsInOrder.length := List.length_reverse.symm
          have hstored := storedFrom_storeResult db env request.ruleId request.triggerType
            t.attempts.length hend.returned.outcome
          refine ⟨last, attempt, _, by rw [horder]; simp, hend.returned.returned, ?_,
            fun log' h' => hlog log' (hok log' h')⟩
          rw [hdb, ← hlength]
          exact hstored.withLeases leases

/-- **A message can be sent again.**  The run of `Sample.repeatedRun` sends its one message three
times, and the address in To accepts it each time. -/
theorem repeated_address_resent :
    Sample.repeatedRun.2.attemptsInOrder.map AttemptRecord.deliveries =
      List.replicate 3 [(["ops@example.com"], ["ops@example.com"], true)] ∧
    ¬ RepeatsNoMail Sample.repeatedRun.2.attemptsInOrder := by
  have hsent : Sample.repeatedRun.2.attemptsInOrder.map AttemptRecord.deliveries =
      List.replicate 3 [(["ops@example.com"], ["ops@example.com"], true)] := by decide +kernel
  refine ⟨hsent, fun hno => ?_⟩
  obtain ⟨first, later, hsplit, hfirst, hlater⟩ := List.map_eq_cons_iff.mp hsent
  obtain ⟨d, hd, heq⟩ := List.mem_map.mp (hfirst ▸ List.mem_singleton_self _)
  have haccepted : d.acceptedBySome = true := (Prod.mk.inj (Prod.mk.inj heq).2).2
  rw [hno [] first later hsplit ⟨d, hd, haccepted⟩] at hlater
  cases hlater

end EarlyWarning
