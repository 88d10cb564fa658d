/-
# `MessageBatch` — the messages of one pass, all or none

`RuleExecutor.execute`, from the rows its filter leaves.  `IsMessages` says what the
messages are to be, without the loop that builds them: one for each row in their order, or
one for all of them.  `BuildFails` says when there are none.  The two exclude each other
and one of them holds, so a batch is handed over as a whole or not at all.

The handlers catch an `Exception`.  What is not one (`KeyboardInterrupt`, `SystemExit`) ends
the pass where it is raised: before the first message, or after the one that raised it.
-/
import EarlyWarning.RuleRun

namespace EarlyWarning

open Lib

/-! ## The messages of a batch -/

/-- The addresses a row gives in the field, or else the fixed ones. -/
def rowAddresses (row : Row) (fieldName fixed : String) : List String :=
  if rowRecipients row fieldName ≠ [] then rowRecipients row fieldName else parseRecipients fixed

/-- The message of one of the rows. -/
structure IsRowMessage (libs : Libraries) (rule : AlertRule) (rows : List Row) (row : Row)
    (message : EmailMessage) : Prop where
  rendered : renderPerRow libs.jinja rule.subjectTemplate rule.bodyTemplate row
    (messageContext rule rows) = .ok ⟨message.subject, message.htmlBody⟩
  recipients : message.recipients = rowAddresses row rule.dynamicRecipientField rule.recipients
  recipients_ne : message.recipients ≠ []
  ccRecipients : message.ccRecipients = rowAddresses row rule.dynamicCcField rule.ccRecipients

/-- The message of all the rows. -/
structure IsSummaryMessage (libs : Libraries) (rule : AlertRule) (rows : List Row)
    (message : EmailMessage) : Prop where
  rendered : renderSummary libs.jinja rule.subjectTemplate rule.bodyTemplate rows
    (messageContext rule rows) = .ok ⟨message.subject, message.htmlBody⟩
  recipients : message.recipients = parseRecipients rule.recipients
  recipients_ne : message.recipients ≠ []
  ccRecipients : message.ccRecipients = parseRecipients rule.ccRecipients

/-- The messages for these rows, in their order. -/
def IsMessages (libs : Libraries) (rule : AlertRule) (rows : List Row)
    (messages : List EmailMessage) : Prop :=
  match rule.sendMode with
  | .perRow => List.Forall₂ (IsRowMessage libs rule rows) rows messages
  | .summary => ∃ message, messages = [message] ∧ IsSummaryMessage libs rule rows message

/-- A row cannot be rendered, or there is nobody to send it to. -/
def RowFails (libs : Libraries) (rule : AlertRule) (rows : List Row) (row : Row) : Prop :=
  (∃ exc, renderPerRow libs.jinja rule.subjectTemplate rule.bodyTemplate row
    (messageContext rule rows) = .error exc) ∨
  rowAddresses row rule.dynamicRecipientField rule.recipients = []

/-- Some message of the batch cannot be rendered or has no recipient. -/
def BuildFails (libs : Libraries) (rule : AlertRule) (rows : List Row) : Prop :=
  match rule.sendMode with
  | .perRow => ∃ row ∈ rows, RowFails libs rule rows row
  | .summary => parseRecipients rule.recipients = [] ∨
      ∃ exc, renderSummary libs.jinja rule.subjectTemplate rule.bodyTemplate rows
        (messageContext rule rows) = .error exc

section

variable {libs : Libraries} {rule : AlertRule} {rows : List Row} {row : Row}
  {message : EmailMessage} {messages : List EmailMessage}

/-- What building the message of a row comes to, by what rendering it does. -/
theorem buildRowMessage_eq (context : Context) :
    buildRowMessage libs rule context row =
      match renderPerRow libs.jinja rule.subjectTemplate rule.bodyTemplate row context with
      | .error exc => .error exc
      | .ok rendered =>
          if rowAddresses row rule.dynamicRecipientField rule.recipients = [] then
            .error (valueError "recipients must not be empty")
          else
            .ok { recipients := rowAddresses row rule.dynamicRecipientField rule.recipients
                  ccRecipients := rowAddresses row rule.dynamicCcField rule.ccRecipients
                  subject := rendered.subject, htmlBody := rendered.htmlBody } := by
  simp only [buildRowMessage]
  cases renderPerRow libs.jinja rule.subjectTemplate rule.bodyTemplate row context with
  | error exc => rfl
  | ok rendered =>
      show ite (rowAddresses _ _ _ = []) _ _ = _
      by_cases hnone : rowAddresses row rule.dynamicRecipientField rule.recipients = []
      · rw [if_pos hnone]
        simp only [hnone, if_true]
        rfl
      · rw [if_neg hnone]
        simp only [hnone, if_false]
        rfl

theorem buildRowMessage_eq_ok :
    buildRowMessage libs rule (messageContext rule rows) row = .ok message ↔
      IsRowMessage libs rule rows row message := by
  rw [buildRowMessage_eq]
  cases hrendered : renderPerRow libs.jinja rule.subjectTemplate rule.bodyTemplate row
      (messageContext rule rows) with
  | error exc =>
      constructor
      · intro h
        cases h
      · intro h
        cases hrendered.symm.trans h.rendered
  | ok rendered =>
      simp only []
      constructor
      · intro h
        split at h
        case isTrue => cases h
        case isFalse hne =>
          cases h
          exact ⟨hrendered, rfl, hne, rfl⟩
      · rintro ⟨hmessage, hrecipients, hne, hcc⟩
        cases hrendered.symm.trans hmessage
        rw [if_neg (hrecipients ▸ hne), ← hrecipients, ← hcc]

theorem buildRowMessage_fails :
    (∃ exc, buildRowMessage libs rule (messageContext rule rows) row = .error exc) ↔
      RowFails libs rule rows row := by
  rw [buildRowMessage_eq, RowFails]
  cases hrendered : renderPerRow libs.jinja rule.subjectTemplate rule.bodyTemplate row
      (messageContext rule rows) with
  | error exc => exact ⟨fun _ => .inl ⟨exc, rfl⟩, fun _ => ⟨exc, rfl⟩⟩
  | ok rendered =>
      simp only []
      constructor
      · rintro ⟨exc, h⟩
        split at h
        case isTrue hnone => exact .inr hnone
        case isFalse => cases h
      · rintro (⟨exc, h⟩ | hnone)
        · cases h
        · exact ⟨_, if_pos hnone⟩

/-- What building the summary comes to, by what rendering it does. -/
theorem buildSummaryMessage_eq (context : Context) :
    buildSummaryMessage libs rule context rows =
      if parseRecipients rule.recipients = [] then
        .error (valueError "recipients must not be empty")
      else
        match renderSummary libs.jinja rule.subjectTemplate rule.bodyTemplate rows context with
        | .error exc => .error exc
        | .ok rendered =>
            .ok { recipients := parseRecipients rule.recipients
                  ccRecipients := parseRecipients rule.ccRecipients
                  subject := rendered.subject, htmlBody := rendered.htmlBody } := by
  simp only [buildSummaryMessage]
  by_cases hnone : parseRecipients rule.recipients = []
  · rw [if_pos hnone]
    simp only [hnone, if_true]
    rfl
  · rw [if_neg hnone]
    simp only [hnone, if_false]
    cases renderSummary libs.jinja rule.subjectTemplate rule.bodyTemplate rows context with
    | error exc => rfl
    | ok rendered => rfl

theorem buildSummaryMessage_eq_ok :
    buildSummaryMessage libs rule (messageContext rule rows) rows = .ok message ↔
      IsSummaryMessage libs rule rows message := by
  rw [buildSummaryMessage_eq]
  by_cases hnone : parseRecipients rule.recipients = []
  · rw [if_pos hnone]
    constructor
    · intro h
      cases h
    · intro h
      exact absurd (h.recipients.trans hnone) h.recipients_ne
  · rw [if_neg hnone]
    cases hrendered : renderSummary libs.jinja rule.subjectTemplate rule.bodyTemplate rows
        (messageContext rule rows) with
    | error exc =>
        constructor
        · intro h
          cases h
        · intro h
          cases hrendered.symm.trans h.rendered
    | ok rendered =>
        simp only []
        constructor
        · intro h
          cases h
          exact ⟨hrendered, rfl, hnone, rfl⟩
        · rintro ⟨hmessage, hrecipients, -, hcc⟩
          cases hrendered.symm.trans hmessage
          rw [← hrecipients, ← hcc]

theorem buildSummaryMessage_fails :
    (∃ exc, buildSummaryMessage libs rule (messageContext rule rows) rows = .error exc) ↔
      parseRecipients rule.recipients = [] ∨
        ∃ exc, renderSummary libs.jinja rule.subjectTemplate rule.bodyTemplate rows
          (messageContext rule rows) = .error exc := by
  rw [buildSummaryMessage_eq]
  by_cases hnone : parseRecipients rule.recipients = []
  · rw [if_pos hnone]
    exact ⟨fun _ => .inl hnone, fun _ => ⟨_, rfl⟩⟩
  · rw [if_neg hnone]
    cases renderSummary libs.jinja rule.subjectTemplate rule.bodyTemplate rows
        (messageContext rule rows) with
    | error exc => exact ⟨fun _ => .inr ⟨exc, rfl⟩, fun _ => ⟨exc, rfl⟩⟩
    | ok rendered =>
        constructor
        · rintro ⟨exc, h⟩
          cases h
        · rintro (h | ⟨exc, h⟩)
          · exact absurd h hnone
          · cases h

/-- `_build_messages` returns the messages of the batch and no others. -/
theorem buildMessages_eq_ok :
    buildMessages libs rule rows = .ok messages ↔ IsMessages libs rule rows messages := by
  simp only [buildMessages, IsMessages]
  cases rule.sendMode with
  | perRow =>
      simp only [mapM_eq_ok, buildRowMessage_eq_ok]
  | summary =>
      simp only [bind_eq_ok, buildSummaryMessage_eq_ok]
      constructor
      · rintro ⟨message, hmessage, h⟩
        cases h
        exact ⟨message, rfl, hmessage⟩
      · rintro ⟨message, rfl, hmessage⟩
        exact ⟨message, hmessage, rfl⟩

/-- It raises when one of them cannot be built, wherever it stands. -/
theorem buildMessages_fails :
    (∃ exc, buildMessages libs rule rows = .error exc) ↔ BuildFails libs rule rows := by
  simp only [buildMessages, BuildFails]
  cases rule.sendMode with
  | perRow =>
      simp only [mapM_fails, buildRowMessage_fails]
  | summary =>
      rw [← buildSummaryMessage_fails]
      constructor
      · rintro ⟨exc, h⟩
        obtain h | ⟨message, -, h⟩ := bind_eq_error.mp h
        · exact ⟨exc, h⟩
        · cases h
      · rintro ⟨exc, h⟩
        exact ⟨exc, bind_eq_error.mpr (.inl h)⟩

/-! ## Handing them over -/

/-- The mailer raised `exc` on one of the messages, and those up to it have been handed over;
`k` of the attempt came before. -/
def Interrupted (mailer : Mailer) (k : Nat) (messages : List EmailMessage) (exc : PyExc)
    (handed : List EmailMessage) : Prop :=
  ∃ sent message unsent, messages = sent ++ message :: unsent ∧
    mailer.send (k + sent.length) message = .error exc ∧ handed = sent ++ [message]

variable {mailer : Mailer} {w : World} {n : Nat} {ru : Option AlertRule}
  {st : Option SuppressionState}

/-- `_send_message` hands its message over and raises only what no handler catches. -/
theorem sendMessage_raises {k : Nat} {r : AttemptRecord} :
    wp (sendMessage mailer k message)
      (fun _ w' => w' = w.inAttempt n ru st { r with
        handed := r.handed ++ [mailer.deliver k message] })
      (fun exc w' => exc.isException = false ∧ mailer.send k message = .error exc ∧
        w' = w.inAttempt n ru st { r with handed := r.handed ++ [mailer.deliver k message] })
      (w.inAttempt n ru st r) := by
  simp only [sendMessage, wp_bind]
  refine noteAttempt_wp ?_
  cases hsend : mailer.send k message with
  | ok result => rfl
  | error exc =>
      by_cases hexc : exc.isException
      · simp only [hexc, if_true, wp_pure]
      · simp only [hexc, Bool.false_eq_true, if_false, wp_throw, and_self]

/-- An exception that leaves the loop comes from the last message handed over. -/
theorem sendMessages_raises : ∀ {messages : List EmailMessage} {k : Nat} {r : AttemptRecord},
    wp (sendMessages mailer k messages) (fun _ _ => True)
      (fun exc w' => exc.isException = false ∧ ∃ ds,
        w' = w.inAttempt n ru st { r with handed := r.handed ++ ds } ∧
        Interrupted mailer k messages exc (ds.map Delivery.message))
      (w.inAttempt n ru st r)
  | [], k, r => trivial
  | message :: rest, k, r => by
      simp only [sendMessages, wp_bind]
      refine wp_mono sendMessage_raises (fun mailResult w' hw => ?_) ?_
      · rw [hw, wp_bind]
        refine wp_mono sendMessages_raises (fun _ _ _ => trivial) ?_
        rintro exc w' ⟨hexc, ds, rfl, sent, last, unsent, rfl, hsend, hhanded⟩
        refine ⟨hexc, mailer.deliver k message :: ds, by simp, message :: sent, last, unsent, rfl,
          ?_, by simp [hhanded, Mailer.deliver]⟩
        rw [← hsend, List.length_cons]
        congr 1
        omega
      · rintro exc w' ⟨hexc, hsend, rfl⟩
        exact ⟨hexc, [mailer.deliver k message], rfl, [], message, rest, rfl, hsend, rfl⟩

/-- The whole loop: every message is handed over, once and in order, whatever became of those
before it, unless the mailer raises what no handler catches. -/
theorem sendMessages_batch {r : AttemptRecord}
    (hne : ∀ message ∈ messages, message.recipients ≠ []) :
    wp (sendMessages mailer 0 messages)
      (fun mailResults w' => mailResults.map ExecutionMailResult.message = messages ∧ ∃ ds,
        w' = w.inAttempt n ru st { r with handed := r.handed ++ ds } ∧
        ds.map Delivery.message = messages)
      (fun exc w' => exc.isException = false ∧ ∃ ds,
        w' = w.inAttempt n ru st { r with handed := r.handed ++ ds } ∧
        Interrupted mailer 0 messages exc (ds.map Delivery.message))
      (w.inAttempt n ru st r) := by
  have hsent : wp (sendMessages mailer 0 messages)
      (fun mailResults w' => mailResults.map ExecutionMailResult.message = messages ∧ ∃ ds,
        w' = w.inAttempt n ru st { r with handed := r.handed ++ ds } ∧
        ds.map Delivery.message = messages)
      (fun _ _ => True) (w.inAttempt n ru st r) := by
    refine sendMessages_wp hne (fun ds mailResults hds hanswers => ⟨?_, ds, rfl, hds⟩)
      fun _ _ _ _ => trivial
    rw [← hds]
    clear hds
    induction hanswers with
    | nil => rfl
    | cons hanswered _ ih => rw [List.map_cons, List.map_cons, hanswered.message, ih]
  exact wp_mono (wp_and hsent sendMessages_raises) (fun _ _ h => h.1) fun _ _ h => h.2

/-! ## The pass -/

/-- The SQL is accepted, the query answers, and the filter leaves these rows and this world. -/
def RowsLeft (libs : Libraries) (sqlClient : SqlClient) (rule : AlertRule)
    (rowFilter : Option (List Row → Svc (List Row))) (w : World) (rows : List Row)
    (w' : World) : Prop :=
  libs.validateSelectOnlySql rule.sqlText = .ok () ∧
    ∃ queryResult, sqlClient rule.sqlText rule.queryTimeoutSeconds rule.maxRows = .ok queryResult ∧
      exec (applyRowFilter rowFilter queryResult.rows)
        ((w.note fun r => { r with queried := true }).note
          fun r => { r with fetched := some queryResult.rows }) = (.ok rows, w')

/-- What a pass that returned came to: the rows left, the messages handed over, the result. -/
structure Batch (libs : Libraries) (rule : AlertRule) (rows : List Row)
    (handed : List EmailMessage) (result : ExecutionResult) : Prop where
  nothing : rows = [] → handed = [] ∧ result.status = .success ∧ result.mailResults = []
  failed : rows ≠ [] → BuildFails libs rule rows →
    handed = [] ∧ result.status = .failed ∧ result.mailResults = []
  sent : rows ≠ [] → ¬ BuildFails libs rule rows → IsMessages libs rule rows handed ∧
    result.mailResults.map ExecutionMailResult.message = handed

/-- A pass that was left by an exception: raised while the messages were built, and nothing
was handed over, or by the mailer. -/
def LeftBy (libs : Libraries) (mailer : Mailer) (rule : AlertRule) (rows : List Row)
    (exc : PyExc) (handed : List EmailMessage) : Prop :=
  BuildFails libs rule rows ∧ buildMessages libs rule rows = .error exc ∧ handed = [] ∨
    ∃ messages, IsMessages libs rule rows messages ∧ Interrupted mailer 0 messages exc handed

/-- The messages that were built are those of the batch, so building them does not fail. -/
theorem IsMessages.not_fails (h : IsMessages libs rule rows messages) :
    ¬ BuildFails libs rule rows := by
  rw [← buildMessages_fails]
  rintro ⟨exc, hexc⟩
  cases (buildMessages_eq_ok.mpr h).symm.trans hexc

theorem buildAndSend_batch {rowCount : Nat} {r : AttemptRecord} :
    wp (buildAndSend libs mailer rule rowCount rows)
      (fun result w' => ∃ r' ds, w' = w.inAttempt n ru st r' ∧ r'.handed = r.handed ++ ds ∧
        Batch libs rule rows (ds.map Delivery.message) result)
      (fun exc w' => exc.isException = false ∧ ∃ r' ds, w' = w.inAttempt n ru st r' ∧
        r'.handed = r.handed ++ ds ∧
        LeftBy libs mailer rule rows exc (ds.map Delivery.message))
      (w.inAttempt n ru st r) := by
  simp only [buildAndSend]
  by_cases hrows : rows = []
  · rw [if_pos hrows]
    exact ⟨r, [], rfl, (List.append_nil _).symm, fun _ => ⟨rfl, rfl, rfl⟩,
      fun hne => absurd hrows hne, fun hne => absurd hrows hne⟩
  · rw [if_neg hrows]
    cases hbuilt : buildMessages libs rule rows with
    | error exc =>
        have hfails : BuildFails libs rule rows := buildMessages_fails.mp ⟨exc, hbuilt⟩
        refine handleException_wp ?_ fun hexc => ?_
        · exact ⟨_, [], rfl, (List.append_nil _).symm, fun hnil => absurd hnil hrows,
            fun _ _ => ⟨rfl, rfl, rfl⟩, fun _ hno => absurd hfails hno⟩
        · exact ⟨hexc, r, [], rfl, (List.append_nil _).symm, .inl ⟨hfails, hbuilt, rfl⟩⟩
    | ok messages =>
        have hmessages : IsMessages libs rule rows messages := buildMessages_eq_ok.mp hbuilt
        rw [wp_bind]
        refine noteAttempt_wp ?_
        rw [wp_bind]
        refine wp_mono (sendMessages_batch (buildMessages_recipients hbuilt)) ?_ ?_
        · rintro mailResults w' ⟨hresults, ds, rfl, hds⟩
          refine ⟨_, ds, rfl, rfl, fun hnil => absurd hnil hrows,
            fun _ hfails => absurd hfails hmessages.not_fails, fun _ _ => ?_⟩
          rw [hds]
          exact ⟨hmessages, hresults⟩
        · rintro exc w' ⟨hexc, ds, rfl, hstop⟩
          exact ⟨hexc, _, ds, rfl, rfl, .inr ⟨messages, hmessages, hstop⟩⟩

/-- **The batch of a pass.**  Whatever rows the filter leaves, the pass hands over all of
their messages or none; it ends otherwise only by an exception that no handler catches. -/
theorem message_batch {sqlClient : SqlClient} {rowFilter : Option (List Row → Svc (List Row))}
    {w₁ : World} {r : AttemptRecord} {rest : List AttemptRecord}
    (hleft : RowsLeft libs sqlClient rule rowFilter w rows w₁) (hrecord : w₁.attempts = r :: rest) :
    wp (execute libs sqlClient mailer rule rowFilter)
      (fun result w' => ∃ r' ds, w'.attempts = r' :: rest ∧ r'.handed = r.handed ++ ds ∧
        Batch libs rule rows (ds.map Delivery.message) result)
      (fun exc w' => exc.isException = false ∧ ∃ r' ds, w'.attempts = r' :: rest ∧
        r'.handed = r.handed ++ ds ∧
        LeftBy libs mailer rule rows exc (ds.map Delivery.message)) w := by
  obtain ⟨hvalid, queryResult, hquery, hfilter⟩ := hleft
  simp only [execute, hvalid, hquery, noteAttempt, wp_bind, wp_modify]
  rw [wp, hfilter]
  simp only [wp_bind, wp_modify]
  have hw₁ : (w₁.note fun r => { r with filtered := some rows }) =
      { w₁ with attempts := rest }.inAttempt w₁.ops w₁.rule w₁.filterState
        { r with filtered := some rows } := by
    simp only [World.note, hrecord, List.modifyHead_cons]
    rfl
  rw [hw₁]
  refine wp_mono buildAndSend_batch ?_ ?_
  · rintro result w' ⟨r', ds, rfl, hhanded, hbatch⟩
    exact ⟨r', ds, rfl, hhanded, hbatch⟩
  · rintro exc w' ⟨hexc, r', ds, rfl, hhanded, hby⟩
    exact ⟨hexc, r', ds, rfl, hhanded, hby⟩

end

namespace Sample

/-- One message for each row, to the address in its column `k` or else to the fixed one. -/
def batchRule : AlertRule :=
  { rule with sendMode := .perRow, suppressDuplicates := false, dynamicRecipientField := "k" }

/-- The second row gives no address. -/
def batchRows : List Row := [row "a@example.com; b@example.com", row " ; "]

/-- An attempt is about to begin. -/
def batchWorld : World := { World.start db with attempts := [{}] }

/-- The server accepts every recipient. -/
def takingMailer : Mailer := .smtp fun _ _ => .answers fun _ => true

/-- The process is interrupted while the first message is sent. -/
def keyboardInterrupt : PyExc := ⟨.baseException, "KeyboardInterrupt", "", none, by decide, nofun⟩

def interruptedMailer : Mailer :=
  .compatible fun n _ => if n = 0 then .error keyboardInterrupt else .ok { success := true }

/-- A pass over these rows. -/
def pass (mailer : Mailer) (rule : AlertRule) (rows : List Row) :
    Except PyExc ExecutionResult × World :=
  exec (execute libs (fun _ _ _ => .ok { rows }) mailer rule none) batchWorld

end Sample

/-- A row with two addresses and one with none. -/
theorem message_batch_rows :
    wp (execute Sample.libs (fun _ _ _ => .ok { rows := Sample.batchRows }) Sample.takingMailer
        Sample.batchRule none)
      (fun result w' => ∃ r' ds, w'.attempts = [r'] ∧ r'.handed = [] ++ ds ∧
        Batch Sample.libs Sample.batchRule Sample.batchRows (ds.map Delivery.message) result)
      (fun exc w' => exc.isException = false ∧ ∃ r' ds, w'.attempts = [r'] ∧
        r'.handed = [] ++ ds ∧ LeftBy Sample.libs Sample.takingMailer Sample.batchRule
          Sample.batchRows exc (ds.map Delivery.message))
      Sample.batchWorld := by
  have hleft : RowsLeft Sample.libs (fun _ _ _ => .ok { rows := Sample.batchRows })
      Sample.batchRule none Sample.batchWorld Sample.batchRows { Sample.batchWorld with
        attempts := [{ queried := true, fetched := some Sample.batchRows }] } :=
    ⟨rfl, _, rfl, rfl⟩
  exact message_batch hleft rfl

open Sample in
/-- Two messages are built and the second is not handed over when the process is interrupted
during the first; and a summary of no rows, which could be built, is not sent. -/
theorem batch_left_out :
    ((buildMessages Sample.libs batchRule batchRows).toOption.map List.length = some 2 ∧
      (pass interruptedMailer batchRule batchRows).1 = .error keyboardInterrupt ∧
      (pass interruptedMailer batchRule batchRows).2.attempts.map (·.handed.length) = [1]) ∧
    ((buildMessages Sample.libs rule []).toOption.map List.length = some 1 ∧
      (pass interruptedMailer rule []).2.attempts.map (·.handed.length) = [0]) := by
  decide +kernel

end EarlyWarning
