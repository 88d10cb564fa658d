/-
# `LogConsistency` — the logs of a run agree with each other and with what happened

The status of an execution log, its counts and its texts, and the status of each of its
mail logs are computed at three places from the same list of answers.  `LogsMatch` says how
they fit together, and `LogsAgree` how they should fit what the recipients accepted.

That last part can fail (`repeated_address_failed`).  `sendmail` keeps the refused recipients
by their address, so of an address that stands in To and in Cc, and is refused at one of its
places only, the mailer reports a refusal.  What the logs do tell is which messages an address
accepted wherever it stands (`LogsTell`), and they agree exactly when the answers of the last
attempt are `Steady` (`log_consistency`).
-/
import EarlyWarning.RuleRun

namespace EarlyWarning

open Lib

/-- The logs of a run whose last attempt has this record fit together. -/
structure LogsMatch (last : AttemptRecord) (log : ExecutionLog) (mails : List MailLog) :
    Prop where
  log_id : ∀ m ∈ mails, m.executionLogId = log.id
  /-- one mail log for each message built, in order -/
  messages : mails.map (fun m => (m.recipients, m.ccRecipients, m.subject)) =
    (last.built.getD []).map fun m =>
      (PyStr.join "," m.recipients, PyStr.join "," m.ccRecipients, m.subject)
  handed : last.handed.map Delivery.message = last.built.getD []
  email_count : log.emailCount = mails.countP fun m => m.status = .success
  success : log.status = .success ↔ (∀ m ∈ mails, m.status = .success) ∧ last.caught = none
  error_type : log.errorType = "" ↔ log.status = .success
  error_message : log.errorMessage = "" ↔ log.status = .success
  row_count : last.filtered.isSome = true → ∃ rows, last.fetched = some rows ∧
    log.rowCount = rows.length

/-- The logs fit together and agree with what the recipients accepted. -/
structure LogsAgree (last : AttemptRecord) (log : ExecutionLog) (mails : List MailLog) : Prop
    extends LogsMatch last log mails where
  partial_failed : log.status = .partialFailed ↔
    (∃ d ∈ last.handed, d.acceptedBySome = true) ∧ ∃ d ∈ last.handed, d.acceptedByAll = false
  failed : log.status = .failed → ∀ d ∈ last.handed, d.acceptedBySome = false

/-- What the logs tell of the recipients, and when that is what the recipients accepted. -/
structure LogsTell (last : AttemptRecord) (log : ExecutionLog) (mails : List MailLog) : Prop
    extends LogsMatch last log mails where
  partial_failed : log.status = .partialFailed ↔
    (∃ d ∈ last.handed, d.acceptedThroughout = true) ∧
      ∃ d ∈ last.handed, d.acceptedByAll = false
  failed : log.status = .failed → ∀ d ∈ last.handed, d.acceptedThroughout = false
  agree_iff : LogsAgree last log mails ↔ last.Steady

/-! ## The answers of the messages -/

section

variable {ds : List Delivery} {mailResults : List ExecutionMailResult}

/-- Whether a mail result says that some recipient was reached. -/
def ExecutionMailResult.accepted (mailResult : ExecutionMailResult) : Bool :=
  mailResult.result.success || mailResult.result.partialSuccess

theorem answered_maps (h : List.Forall₂ Delivery.Answered ds mailResults) :
    mailResults.map (·.message) = ds.map (·.message) ∧
    mailResults.map (·.result.success) = ds.map (·.acceptedByAll) ∧
    mailResults.map ExecutionMailResult.accepted = ds.map (·.acceptedThroughout) := by
  induction h with
  | nil => exact ⟨rfl, rfl, rfl⟩
  | cons hd _ ih =>
      obtain ⟨h1, h2, h3⟩ := ih
      simp only [List.map_cons, h1, h2, h3, hd.message, hd.all, List.cons.injEq, and_true,
        true_and]
      exact hd.throughout

theorem statusForMailResults_success :
    statusForMailResults mailResults = .success ↔
      ∀ mr ∈ mailResults, mr.result.success = true := by
  unfold statusForMailResults successfulCount
  split
  case isTrue h => simpa using List.countP_eq_length.mp h
  case isFalse h =>
    have hne : ¬ ∀ mr ∈ mailResults, mr.result.success = true :=
      fun hall => h (List.countP_eq_length.mpr hall)
    split <;> simpa using hne

theorem statusForMailResults_partialFailed :
    statusForMailResults mailResults = .partialFailed ↔
      (∃ mr ∈ mailResults, mr.accepted = true) ∧
        ∃ mr ∈ mailResults, mr.result.success = false := by
  unfold statusForMailResults successfulCount
  split
  case isTrue h =>
    have hall := List.countP_eq_length.mp h
    simp only [reduceCtorEq, false_iff, not_and, not_exists]
    intro _ mr hmr
    simp [hall mr hmr]
  case isFalse h =>
    have hsome : ∃ mr ∈ mailResults, mr.result.success = false := by
      by_contra hno
      refine h (List.countP_eq_length.mpr fun mr hmr => ?_)
      by_contra hf
      exact hno ⟨mr, hmr, by simpa using hf⟩
    split
    case isTrue hnone =>
      obtain ⟨hcount, hmixed⟩ := hnone
      simp only [reduceCtorEq, false_iff, not_and]
      rintro ⟨mr, hmr, hacc⟩
      have hs := List.countP_eq_zero.mp hcount mr hmr
      have hp : mr.result.partialSuccess = false := by
        simpa using (List.any_eq_false.mp (by simpa using hmixed)) mr hmr
      simp [ExecutionMailResult.accepted, hs, hp] at hacc
    case isFalse hnot =>
      refine ⟨fun _ => ⟨?_, hsome⟩, fun _ => rfl⟩
      by_contra hno
      refine hnot ⟨List.countP_eq_zero.mpr fun mr hmr hs => hno ⟨mr, hmr, ?_⟩, ?_⟩
      · simp [ExecutionMailResult.accepted, hs]
      · rw [Bool.not_eq_true, List.any_eq_false]
        intro mr hmr hp
        exact hno ⟨mr, hmr, by simp [ExecutionMailResult.accepted, hp]⟩

theorem combinedErrorMessage_ne : combinedErrorMessage mailResults ≠ "" := by
  unfold combinedErrorMessage
  split
  · decide
  · split <;> decide

end

/-! ## Types and texts of errors -/

section

variable {r : AttemptRecord} {result : ExecutionResult}

/-- A result has an error type and an error text, or neither and it is a success. -/
theorem Outcome.errors (h : Outcome r result) :
    (result.errorType = "" ↔ result.status = .success) ∧
    (result.errorMessage.getD "" = "" ↔ result.status = .success) := by
  cases h with
  | failed exc _ _ _ _ hstatus htype hmessage =>
      simp [hstatus, htype, hmessage]
  | empty => exact ⟨⟨fun _ => rfl, fun _ => rfl⟩, ⟨fun _ => rfl, fun _ => rfl⟩⟩
  | sent rows messages mailResults =>
      have hlt : successfulCount mailResults < mailResults.length ↔
          ¬ statusForMailResults mailResults = .success := by
        rw [statusForMailResults_success, successfulCount, ← List.countP_eq_length]
        have := List.countP_le_length (p := fun mr : ExecutionMailResult => mr.result.success)
          (l := mailResults)
        omega
      by_cases hs : statusForMailResults mailResults = .success
      · have hno : ¬ successfulCount mailResults < mailResults.length := fun h => hlt.mp h hs
        simp [sentResult, hs, hno]
      · have hyes : successfulCount mailResults < mailResults.length := hlt.mpr hs
        have hmsg : combinedErrorMessage mailResults ≠ "" := combinedErrorMessage_ne
        simp [sentResult, hs, hyes, hmsg]

/-- The text `_with_exhausted_retry_message` appends after `n` attempts. -/
def retrySuffix (result : ExecutionResult) (n : Nat) : String :=
  if 1 < n ∧ isRetryableResult result = true then s!"（已重试 {n - 1} 次）" else ""

theorem withExhaustedRetryMessage_fields (result : ExecutionResult) (n : Nat) :
    (withExhaustedRetryMessage result n).status = result.status ∧
    (withExhaustedRetryMessage result n).rowCount = result.rowCount ∧
    (withExhaustedRetryMessage result n).mailCount = result.mailCount ∧
    (withExhaustedRetryMessage result n).errorType = result.errorType ∧
    (withExhaustedRetryMessage result n).mailResults = result.mailResults := by
  simp only [withExhaustedRetryMessage]
  split <;> exact ⟨rfl, rfl, rfl, rfl, rfl⟩

/-- After one attempt there is no suffix. -/
theorem withExhaustedRetryMessage_one (result : ExecutionResult) :
    withExhaustedRetryMessage result 1 = result := by
  simp [withExhaustedRetryMessage]

theorem withExhaustedRetryMessage_message {n : Nat}
    (h : isRetryableResult result = true → result.errorMessage.getD "" ≠ "") :
    (withExhaustedRetryMessage result n).errorMessage.getD "" =
      result.errorMessage.getD "" ++ retrySuffix result n := by
  simp only [withExhaustedRetryMessage, retrySuffix]
  by_cases hr : isRetryableResult result = true
  · by_cases hn : 1 < n
    · have hzero : ¬ n - 1 = 0 := by omega
      simp [hr, hn, hzero, orElse, h hr]
    · have hzero : n - 1 = 0 := by omega
      simp [hr, hn, hzero]
  · simp [hr]

/-- The persisted text of an attempt: its own, and the suffix. -/
theorem Outcome.message (h : Outcome r result) (n : Nat) :
    (withExhaustedRetryMessage result n).errorMessage.getD "" =
      result.errorMessage.getD "" ++ retrySuffix result n := by
  refine withExhaustedRetryMessage_message fun hr hempty => ?_
  have hsuccess := h.errors.2.mp hempty
  rw [isRetryableResult_failed hr] at hsuccess
  cases hsuccess

end

/-! ## A result and its record -/

section

variable {r : AttemptRecord} {result : ExecutionResult}

theorem Outcome.messages (h : Outcome r result) :
    result.mailResults.map (·.message) = r.built.getD [] ∧
    r.handed.map Delivery.message = r.built.getD [] := by
  cases h with
  | failed exc _ _ hbuilt hhanded _ _ _ hmails => simp [hbuilt, hhanded, hmails]
  | empty rows _ _ hbuilt hhanded => simp [hbuilt, hhanded]
  | sent rows messages mailResults _ hbuilt _ hhanded ha =>
      rw [hbuilt]
      exact ⟨(answered_maps ha).1.trans hhanded, hhanded⟩

theorem Outcome.mailCount (h : Outcome r result) :
    result.mailCount = result.mailResults.countP fun mr => mr.result.success := by
  cases h with
  | failed exc _ _ _ _ _ _ _ hmails hcount => simp [hmails, hcount]
  | empty => rfl
  | sent => rfl

theorem Outcome.success (h : Outcome r result) :
    result.status = .success ↔
      (∀ mr ∈ result.mailResults, mr.result.success = true) ∧ r.caught = none := by
  cases h with
  | failed exc _ hcaught _ _ hstatus => simp [hstatus, hcaught]
  | empty rows _ _ _ _ hcaught => simp [hcaught]
  | sent rows messages mailResults _ _ hcaught =>
      rw [hcaught]
      exact statusForMailResults_success.trans (and_iff_left rfl).symm

theorem Outcome.partialFailed (h : Outcome r result) :
    result.status = .partialFailed ↔
      (∃ d ∈ r.handed, d.acceptedThroughout = true) ∧
        ∃ d ∈ r.handed, d.acceptedByAll = false := by
  cases h with
  | failed exc _ _ _ hhanded hstatus => simp [hstatus, hhanded]
  | empty rows _ _ _ hhanded => simp [hhanded]
  | sent rows messages mailResults _ _ _ _ ha =>
      obtain ⟨-, hall, hthroughout⟩ := answered_maps ha
      have hexists : ∀ {α : Type} (f : α → Bool) (l : List α) (b : Bool),
          (∃ a ∈ l, f a = b) ↔ b ∈ l.map f := fun f l b => List.mem_map.symm
      refine statusForMailResults_partialFailed.trans ?_
      rw [hexists, hexists (fun mr : ExecutionMailResult => mr.result.success), hthroughout, hall,
        ← hexists, ← hexists]

/-- Every message of a result that returned has its answer. -/
theorem Outcome.answered (h : Outcome r result) {d : Delivery} (hd : d ∈ r.handed) :
    ∃ mailResult ∈ result.mailResults, d.Answered mailResult := by
  cases h with
  | failed exc _ _ _ hhanded =>
      rw [hhanded] at hd
      cases hd
  | empty rows _ _ _ hhanded =>
      rw [hhanded] at hd
      cases hd
  | sent rows messages mailResults _ _ _ _ ha => exact answered_mem ha hd

/-- The status tells what the recipients accepted exactly when the answers are steady. -/
theorem Outcome.steady_iff (h : Outcome r result) :
    ((result.status = .partialFailed ↔
        (∃ d ∈ r.handed, d.acceptedBySome = true) ∧ ∃ d ∈ r.handed, d.acceptedByAll = false) ∧
      (result.status = .failed → ∀ d ∈ r.handed, d.acceptedBySome = false)) ↔ r.Steady := by
  constructor
  · rintro ⟨hmixed, -⟩ hsome
    by_cases hall : ∀ d ∈ r.handed, d.acceptedByAll = true
    · obtain ⟨d, hd, -⟩ := hsome
      obtain ⟨mailResult, -, ha⟩ := h.answered hd
      refine ⟨d, hd, ?_⟩
      rw [← ha.throughout, ha.all, hall d hd]
      rfl
    · have hnot : ∃ d ∈ r.handed, d.acceptedByAll = false := by simpa using hall
      exact (h.partialFailed.mp (hmixed.mpr ⟨hsome, hnot⟩)).1
  · intro hsteady
    have hexists : (∃ d ∈ r.handed, d.acceptedThroughout = true) ↔
        ∃ d ∈ r.handed, d.acceptedBySome = true := by
      refine ⟨fun ⟨d, hd, hthroughout⟩ => ⟨d, hd, ?_⟩, hsteady⟩
      obtain ⟨mailResult, -, ha⟩ := h.answered hd
      exact ha.some hthroughout
    refine ⟨by rw [← hexists]; exact h.partialFailed, fun hfailed d hd => ?_⟩
    by_contra haccepted
    obtain ⟨d', hd', hthroughout⟩ := hsteady ⟨d, hd, by simpa using haccepted⟩
    rw [h.failed_none_throughout hfailed d' hd'] at hthroughout
    cases hthroughout

theorem Outcome.rowCount (h : Outcome r result) (hfiltered : r.filtered.isSome = true) :
    ∃ rows, r.fetched = some rows ∧ result.rowCount = rows.length := by
  cases h with
  | failed exc _ _ _ _ _ _ _ _ _ hrows => exact hrows hfiltered
  | empty rows hfetched => exact ⟨rows, hfetched, rfl⟩
  | sent rows messages mailResults hfetched => exact ⟨rows, hfetched, rfl⟩

end

/-! ## The stored logs -/

section

variable {r : AttemptRecord} {result : ExecutionResult} {i n ruleId : Nat}
  {triggerType : TriggerType} {startedAt finishedAt : DateTime} {mails : List MailLog}

theorem buildMailLog_success (mailResult : ExecutionMailResult) :
    (buildMailLog i mailResult).status = .success ↔ mailResult.result.success = true := by
  unfold buildMailLog
  cases hs : mailResult.result.success with
  | true => simp
  | false => cases hp : mailResult.result.partialSuccess <;> simp

/-- What does not look at the ids of the mail logs sees those that were built. -/
theorem mails_map {β : Type} {mailResults : List ExecutionMailResult}
    (hmails : mails.map (fun m => { m with id := 0 }) = mailResults.map (buildMailLog i))
    (f : MailLog → β) (hf : ∀ m : MailLog, f { m with id := 0 } = f m) :
    mails.map f = mailResults.map fun mr => f (buildMailLog i mr) := by
  calc mails.map f = (mails.map fun m => { m with id := 0 }).map f := by
        rw [List.map_map]
        exact List.map_congr_left fun m _ => (hf m).symm
    _ = mailResults.map fun mr => f (buildMailLog i mr) := by rw [hmails, List.map_map]; rfl

/-- The logs written for a result fit the record it belongs to. -/
theorem Outcome.logsMatch (h : Outcome r result)
    (hmails : mails.map (fun m => { m with id := 0 }) = result.mailResults.map (buildMailLog i)) :
    LogsMatch r
      { buildExecutionLog ruleId triggerType (withExhaustedRetryMessage result n)
          startedAt finishedAt with id := i } mails := by
  obtain ⟨hstatus, hrows, hcount, htype, -⟩ := withExhaustedRetryMessage_fields result n
  have hstatuses : mails.map (fun m => decide (m.status = .success)) =
      result.mailResults.map fun mr => mr.result.success := by
    rw [mails_map hmails _ fun _ => rfl]
    exact List.map_congr_left fun mr _ => by simp [buildMailLog_success]
  refine
    { log_id := fun m hm => ?_
      messages := ?_
      handed := h.messages.2
      email_count := ?_
      success := ?_
      error_type := ?_
      error_message := ?_
      row_count := fun hfiltered => ?_ }
  · have hids : mails.map (·.executionLogId) = result.mailResults.map fun _ => i :=
      mails_map hmails _ fun _ => rfl
    have hm' := List.mem_map_of_mem (f := MailLog.executionLogId) hm
    rw [hids] at hm'
    obtain ⟨_, -, hi⟩ := List.mem_map.mp hm'
    exact hi.symm
  · rw [mails_map hmails _ fun _ => rfl, ← h.messages.1, List.map_map]
    rfl
  · show (withExhaustedRetryMessage result n).mailCount = _
    rw [hcount, h.mailCount]
    have hcounts := congrArg (List.countP id) hstatuses
    rw [List.countP_map, List.countP_map] at hcounts
    exact hcounts.symm
  · show (withExhaustedRetryMessage result n).status = .success ↔ _
    rw [hstatus, h.success]
    refine and_congr_left fun _ => ?_
    have hforall := List.forall_mem_map (l := result.mailResults)
      (f := fun mr => mr.result.success) (P := fun b => b = true)
    rw [← hforall, ← hstatuses, List.forall_mem_map]
    simp only [decide_eq_true_eq]
  · show (withExhaustedRetryMessage result n).errorType = "" ↔
      (withExhaustedRetryMessage result n).status = .success
    rw [htype, hstatus]
    exact h.errors.1
  · show (withExhaustedRetryMessage result n).errorMessage.getD "" = "" ↔
      (withExhaustedRetryMessage result n).status = .success
    rw [hstatus, h.message, ← h.errors.2, String.append_eq_empty_iff]
    refine and_iff_left_of_imp fun hempty => ?_
    have hsuccess := h.errors.2.mp hempty
    have hno : isRetryableResult result = false := by
      simp [isRetryableResult, hsuccess]
    simp [retrySuffix, hno]
  · obtain ⟨rows, hfetched, hlen⟩ := h.rowCount hfiltered
    exact ⟨rows, hfetched, hrows.trans hlen⟩

/-- The logs written for a result tell of the recipients what its answers told. -/
theorem Outcome.logsTell (h : Outcome r result)
    (hmails : mails.map (fun m => { m with id := 0 }) = result.mailResults.map (buildMailLog i)) :
    LogsTell r
      { buildExecutionLog ruleId triggerType (withExhaustedRetryMessage result n)
          startedAt finishedAt with id := i } mails := by
  have hstatus := (withExhaustedRetryMessage_fields result n).1
  refine
    { toLogsMatch := h.logsMatch hmails
      partial_failed := ?_
      failed := fun hfailed => h.failed_none_throughout (hstatus.symm.trans hfailed)
      agree_iff := ?_ }
  · show (withExhaustedRetryMessage result n).status = .partialFailed ↔ _
    rw [hstatus]
    exact h.partialFailed
  · rw [← h.steady_iff, ← hstatus]
    exact ⟨fun hagree => ⟨hagree.partial_failed, hagree.failed⟩,
      fun ⟨hmixed, hfailed⟩ => ⟨h.logsMatch hmails, hmixed, hfailed⟩⟩

/-- The database `after` has one more execution log than `db`, with its mail logs. -/
def StoresLogs (db after : Db) (last : AttemptRecord) : Prop :=
  ∃ log mails, after.executionLogs = db.executionLogs ++ [log] ∧
    after.mailLogs = db.mailLogs ++ mails ∧ LogsTell last log mails

theorem Outcome.storesLogs (h : Outcome r result) (db : Db) (env : RunEnv)
    (state : Option SuppressionState) :
    StoresLogs db (db.storeResult env ruleId triggerType
      { result := withExhaustedRetryMessage result n, suppressionState := state }) r := by
  obtain ⟨mails, hlogs, hmails⟩ := Db.storeMails_mailLogs (nextId (db.executionLogs.map (·.id)))
    result.mailResults
    ((db.storeSuppression ruleId
        { result := withExhaustedRetryMessage result n, suppressionState := state }).write
      (.insertExecutionLog (buildExecutionLog ruleId triggerType
        (withExhaustedRetryMessage result n) env.startedAt env.finishedAt)))
  refine ⟨_, mails, db.storeResult_executionLogs ruleId env triggerType _, ?_, h.logsTell hmails⟩
  obtain ⟨hexec, hmail⟩ := db.storeSuppression_logs ruleId
    { result := withExhaustedRetryMessage result n, suppressionState := state }
  unfold Db.storeResult
  simp only [hexec, (withExhaustedRetryMessage_fields result n).2.2.2.2]
  rw [hlogs]
  exact congrArg (· ++ mails) hmail

end

/-! ## Any row filter

The executor takes any callable as its row filter.  The suppression filter reads the
database and is treated with the attempt; every other one is a function of the rows. -/

section

variable {libs : Libraries} {env : RunEnv} {w : World} {n : Nat} {ru : Option AlertRule}
  {st : Option SuppressionState} {rule : AlertRule}

theorem execute_outcome_wp {sqlClient : SqlClient} {mailer : Mailer}
    {rowFilter : Option (List Row → Except PyExc (List Row))}
    {Q : ExecutionResult → World → Prop} {E : PyExc → World → Prop}
    (hok : ∀ r result, Outcome r result → Q result (w.inAttempt n ru st r))
    (herr : ∀ e r, E e (w.inAttempt n ru st r)) :
    wp (execute libs sqlClient mailer rule
      (rowFilter.map fun f rows => liftExcept (f rows))) Q E (w.inAttempt n ru st {}) := by
  unfold execute
  cases libs.validateSelectOnlySql rule.sqlText with
  | error exc =>
      refine handleException_wp (hok _ _ ?_) fun _ => herr exc _
      exact .failed exc _ rfl rfl rfl rfl exc.typeName_ne (exceptionMessage_ne exc) rfl rfl
        (fun h => by cases h)
  | ok _ =>
      rw [wp_bind]
      refine noteAttempt_wp ?_
      cases sqlClient rule.sqlText rule.queryTimeoutSeconds rule.maxRows with
      | error exc =>
          refine handleException_wp (hok _ _ ?_) fun _ => herr exc _
          exact .failed exc _ rfl rfl rfl rfl exc.typeName_ne SQL_QUERY_FAILURE_ne rfl rfl
            (fun h => by cases h)
      | ok queryResult =>
          rw [wp_bind]
          refine noteAttempt_wp ?_
          have hsend : ∀ kept, wp (do
              noteAttempt fun r => { r with filtered := some kept }
              buildAndSend libs mailer rule queryResult.rows.length kept) Q E
              (w.inAttempt n ru st (.deciding none queryResult.rows [])) := fun kept => by
            rw [wp_bind]
            exact noteAttempt_wp (buildAndSend_wp (P := fun _ => True) rfl trivial
              (fun _ => trivial) (fun _ _ _ _ _ => trivial)
              (fun r' result _ _ _ _ hout => hok r' result hout)
              fun e r' _ _ _ _ _ => herr e r')
          rw [wp_bind]
          cases rowFilter with
          | none => exact hsend queryResult.rows
          | some f => exact liftExcept_wp (fun kept _ => hsend kept) fun e => herr e _

end

/-- **Log consistency.**  A run of `execute_rule_by_id` stores no log, or one execution log
and mail logs that fit it and its last attempt, and agree with what the recipients accepted
exactly when the answers of that attempt are steady; and so does persisting the result of an
executor with any mailer and any row filter. -/
theorem log_consistency (libs : Libraries) (env : RunEnv) :
    (∀ (request : RunRequest) (db : Db),
      let run := exec (executeRuleById libs env request) (World.start db)
      (run.2.store.db.executionLogs = db.executionLogs ∧
        run.2.store.db.mailLogs = db.mailLogs) ∨
      ∃ last, run.2.attempts.head? = some last ∧ StoresLogs db run.2.store.db last) ∧
    (∀ (rule : AlertRule) (sqlClient : SqlClient) (mailer : Mailer)
      (rowFilter : Option (List Row → Except PyExc (List Row))) (triggerType : TriggerType)
      (state st : Option SuppressionState) (w : World) (n : Nat) (ru : Option AlertRule),
      w.Ready rule.id rule → (ru = none ∨ ru = some rule) → w.store.work = w.store.db →
      wp (do
          let result ← execute libs sqlClient mailer rule
            (rowFilter.map fun f rows => liftExcept (f rows))
          persistExecutionResult env rule.id triggerType { result, suppressionState := state })
        (fun _ t => ∃ last, t.attempts.head? = some last ∧
          StoresLogs w.store.db t.store.db last)
        (fun _ t => t.store.db = w.store.db ∨
          ∃ last, t.attempts.head? = some last ∧ StoresLogs w.store.db t.store.db last)
        (w.inAttempt n ru st {})) := by
  constructor
  · intro request db
    have hrun := executeRuleById_run libs env request db
    generalize exec (executeRuleById libs env request) (World.start db) = run at hrun ⊢
    obtain ⟨out, t⟩ := run
    cases hrun with
    | refused e _ leases _ _ hdb => exact .inl ⟨by rw [hdb]; rfl, by rw [hdb]; rfl⟩
    | ran rule body _ after leases _ _ _ hbody hdb =>
        show (t.store.db.executionLogs = _ ∧ _) ∨ _
        rw [hdb]
        obtain ⟨rfl, -⟩ | ⟨last, earlier, attempt, hattempts, hend, rfl, -⟩ := hbody.db_cases
        · exact .inl ⟨rfl, rfl⟩
        · refine .inr ⟨last, by rw [hattempts]; rfl, ?_⟩
          exact hend.returned.outcome.storesLogs db env attempt.suppressionState
  · intro rule sqlClient mailer rowFilter triggerType state st w n ru hw hru hwork
    rw [wp_bind]
    refine execute_outcome_wp (fun r result hout => ?_) fun e r => .inl rfl
    have hstored : StoresLogs w.store.db (w.store.work.storeResult env rule.id triggerType
        { result, suppressionState := state }) r := by
      have h : StoresLogs w.store.db (w.store.db.storeResult env rule.id triggerType
          { result := withExhaustedRetryMessage result 1, suppressionState := state }) r :=
        hout.storesLogs w.store.db env state
      rw [withExhaustedRetryMessage_one] at h
      rw [hwork]
      exact h
    refine persistExecutionResult_wp (hw.inAttempt hru).knows (fun t ht => ?_) (fun e t ht => ?_)
      fun e t ht => ?_
    · exact ⟨r, by rw [ht.attempts]; rfl, by rw [ht.db]; exact hstored⟩
    · exact .inl ht.db
    · exact .inr ⟨r, by rw [ht.attempts]; rfl, by rw [ht.db]; exact hstored⟩

/-! ## An address in To and in Cc

The server accepts the address for To and refuses it for Cc, as one that rejects repetitions
does.  The message is delivered, and the logs call it failed. -/

namespace Sample

def repeatedDb : Db :=
  { db with alertRules := [{ rule with ccRecipients := "ops@example.com" }] }

/-- The first recipient of every message is accepted. -/
def repeatedEnv : RunEnv :=
  { env (20000 * DateTime.hour) [row "a"] with
    attempt := fun _ => { attempt (20000 * DateTime.hour) [row "a"] with
      buildSmtpMailer := fun _ => .ok (.smtp fun _ _ => .answers fun n => n = 0) } }

/-- A run at that rule. -/
def repeatedRun : Except PyExc ExecutionLog × World :=
  exec (executeRuleById libs repeatedEnv request) (World.start repeatedDb)

end Sample

/-- What the server was asked to deliver, and whether it did. -/
def AttemptRecord.deliveries (r : AttemptRecord) : List (List String × List String × Bool) :=
  r.handed.map fun d => (d.message.recipients, d.message.ccRecipients, d.acceptedBySome)

/-- **The logs need not agree with what the recipients accepted.** -/
theorem repeated_address_failed :
    ∃ last log, Sample.repeatedRun.2.attempts.head? = some last ∧
      last.deliveries = [(["ops@example.com"], ["ops@example.com"], true)] ∧
      Sample.repeatedRun.2.store.db.executionLogs = [log] ∧ log.status = .failed ∧
      ¬ LogsAgree last log Sample.repeatedRun.2.store.db.mailLogs := by
  have hattempt : Sample.repeatedRun.2.attempts.head?.map AttemptRecord.deliveries =
      some [(["ops@example.com"], ["ops@example.com"], true)] := by decide +kernel
  have hstored : Sample.repeatedRun.2.store.db.executionLogs.map ExecutionLog.status =
      [.failed] := by decide +kernel
  obtain ⟨last, hlast, hdeliveries⟩ := Option.map_eq_some_iff.mp hattempt
  obtain ⟨log, hlog, hstatus⟩ := List.map_eq_singleton_iff.mp hstored
  refine ⟨last, log, hlast, hdeliveries, hlog, hstatus, fun hagree => ?_⟩
  obtain ⟨d, hd, haccepted⟩ := List.mem_map.mp (hdeliveries ▸ List.mem_singleton_self _)
  have hnone := hagree.failed hstatus d hd
  simp only [Prod.mk.injEq, hnone] at haccepted
  cases haccepted.2.2

end EarlyWarning
