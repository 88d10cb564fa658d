/-
# `Attempt` — what one attempt can do

`executeRuleOnce` reads four tables, builds two clients and runs the executor, and any of
these may raise.  This file says once what may come of it.

  * `AttemptRecord.Follows` — what holds of the record of every attempt, also of one an
    exception cut short: its decisions are those of the ledger it saw, its messages are
    built from the rows it kept, and it handed on a prefix of them.
  * `Outcome` — how the result of an attempt that returned belongs to its record: a step
    failed, or nothing was left to send, or every message was built and handed on.
  * `executeRuleOnce_wp` — an attempt establishes both and leaves the database, the
    session and the earlier attempts alone.
-/
import EarlyWarning.SuppressionFilter

namespace EarlyWarning

open Lib

/-! ## The messages of a pass -/

theorem buildRowMessage_recipients {libs : Libraries} {rule : AlertRule} {context : Context}
    {row : Row} {message : EmailMessage}
    (h : buildRowMessage libs rule context row = .ok message) : message.recipients ≠ [] := by
  obtain ⟨rendered, -, h⟩ := bind_eq_ok.mp h
  by_cases hne : (if rowRecipients row rule.dynamicRecipientField ≠ [] then
      rowRecipients row rule.dynamicRecipientField else parseRecipients rule.recipients) = []
  · simp only [hne, if_true] at h
    cases h
  · simp only [hne, if_false] at h
    cases h
    exact hne

theorem buildSummaryMessage_recipients {libs : Libraries} {rule : AlertRule}
    {context : Context} {rows : List Row} {message : EmailMessage}
    (h : buildSummaryMessage libs rule context rows = .ok message) :
    message.recipients ≠ [] := by
  unfold buildSummaryMessage at h
  by_cases hne : parseRecipients rule.recipients = []
  · simp only [hne, if_true] at h
    cases h
  · simp only [hne, if_false] at h
    obtain ⟨rendered, -, h⟩ := bind_eq_ok.mp h
    cases h
    exact hne

/-- Every message has a recipient. -/
theorem buildMessages_recipients {libs : Libraries} {rule : AlertRule} {rows : List Row}
    {messages : List EmailMessage} (h : buildMessages libs rule rows = .ok messages) :
    ∀ message ∈ messages, message.recipients ≠ [] := by
  unfold buildMessages at h
  cases hm : rule.sendMode with
  | summary =>
      simp only [hm] at h
      obtain ⟨message, hmsg, h⟩ := bind_eq_ok.mp h
      cases h
      simpa using buildSummaryMessage_recipients hmsg
  | perRow =>
      simp only [hm] at h
      intro message hmem
      obtain ⟨row, -, hrow⟩ := mapM_mem h hmem
      exact buildRowMessage_recipients hrow

/-! ## Sending -/

/-- The result kept of a delivery tells the truth about it. -/
structure Delivery.Answered (d : Delivery) (mailResult : ExecutionMailResult) : Prop where
  message : mailResult.message = d.message
  all : mailResult.result.success = d.acceptedByAll
  throughout : (mailResult.result.success || mailResult.result.partialSuccess) =
    d.acceptedThroughout
  some : d.acceptedThroughout = true → d.acceptedBySome = true

theorem normalizeResult_success (result : MailSendResult) :
    (normalizeResult result).success = result.success := by
  unfold normalizeResult
  cases hs : result.success <;> cases hp : result.partialSuccess <;> rfl

theorem normalizeResult_accepted (result : MailSendResult) :
    ((normalizeResult result).success || (normalizeResult result).partialSuccess) =
      (result.success || result.partialSuccess) := by
  unfold normalizeResult
  cases hs : result.success <;> cases hp : result.partialSuccess <;> rfl

/-- The run `w` during an attempt that began in it. -/
def World.inAttempt (w : World) (n : Nat) (rule : Option AlertRule)
    (state : Option SuppressionState) (r : AttemptRecord) : World :=
  { w with ops := n, rule, filterState := state, attempts := r :: w.attempts }

variable {libs : Libraries} {env : RunEnv} {w : World} {n : Nat} {ru : Option AlertRule}
  {st : Option SuppressionState} {r : AttemptRecord}

theorem noteAttempt_wp {f : AttemptRecord → AttemptRecord} {Q : Unit → World → Prop}
    {E : PyExc → World → Prop} (h : Q () (w.inAttempt n ru st (f r))) :
    wp (noteAttempt f) Q E (w.inAttempt n ru st r) := h

/-- `_send_message` hands the message over; its answer tells what became of it. -/
theorem sendMessage_wp {mailer : Mailer} {k : Nat} {message : EmailMessage}
    {Q : ExecutionMailResult → World → Prop} {E : PyExc → World → Prop}
    (hne : message.recipients ≠ [])
    (hok : ∀ d mailResult, d.message = message → d.Answered mailResult →
      Q mailResult (w.inAttempt n ru st { r with handed := r.handed ++ [d] }))
    (herr : ∀ e d, e.isException = false → d.message = message →
      E e (w.inAttempt n ru st { r with handed := r.handed ++ [d] })) :
    wp (sendMessage mailer k message) Q E (w.inAttempt n ru st r) := by
  unfold sendMessage
  rw [wp_bind]
  refine noteAttempt_wp ?_
  have hrec : message.allRecipients ≠ [] := fun h => hne (List.append_eq_nil_iff.mp h).1
  cases hs : mailer.send k message with
  | ok result =>
      obtain ⟨hall, hthroughout⟩ := send_ok hrec hs
      refine hok (mailer.deliver k message) _ rfl ⟨rfl, ?_, ?_, acceptsSome_of_throughout⟩
      · exact (normalizeResult_success result).trans hall.symm
      · exact (normalizeResult_accepted result).trans hthroughout.symm
  | error exc =>
      by_cases he : exc.isException
      · simp only [he, if_true, wp_pure]
        obtain ⟨-, hall, hthroughout⟩ := send_raises hs
        exact hok (mailer.deliver k message) _ rfl
          ⟨rfl, hall.symm, hthroughout.symm, acceptsSome_of_throughout⟩
      · simp only [he]
        exact herr exc (mailer.deliver k message) (by simpa using he) rfl

/-- The messages are handed over in order, each with its answer; an exception leaves a
prefix handed over. -/
theorem sendMessages_wp {mailer : Mailer} : ∀ {messages : List EmailMessage} {k : Nat}
    {r : AttemptRecord} {Q : List ExecutionMailResult → World → Prop}
    {E : PyExc → World → Prop},
    (∀ message ∈ messages, message.recipients ≠ []) →
    (∀ ds mailResults, ds.map Delivery.message = messages →
      List.Forall₂ Delivery.Answered ds mailResults →
      Q mailResults (w.inAttempt n ru st { r with handed := r.handed ++ ds })) →
    (∀ e ds, e.isException = false → ds.map Delivery.message <+: messages →
      E e (w.inAttempt n ru st { r with handed := r.handed ++ ds })) →
    wp (sendMessages mailer k messages) Q E (w.inAttempt n ru st r)
  | [], k, r, Q, E, _, hok, _ => by
      have h := hok [] [] rfl .nil
      rw [List.append_nil] at h
      exact h
  | message :: rest, k, r, Q, E, hne, hok, herr => by
      unfold sendMessages
      rw [wp_bind]
      refine sendMessage_wp (hne message List.mem_cons_self) (fun d mailResult hd ha => ?_)
        fun e d he hd => ?_
      · rw [wp_bind]
        refine sendMessages_wp (fun m hm => hne m (List.mem_cons_of_mem _ hm))
          (fun ds mailResults hds has => ?_) fun e ds he hds => ?_
        · rw [wp_pure]
          simpa using hok (d :: ds) (mailResult :: mailResults) (by simp [hd, hds]) (.cons ha has)
        · simpa using herr e (d :: ds) he (by simpa [hd] using hds)
      · exact herr e [d] he (by simp [hd])

/-! ## What the record of an attempt says -/

/-- The decisions of the filter of an attempt that read `now`. -/
def suppressionDecisions (db : Db) (rule : AlertRule) (now : DateTime) (rows : List Row) :
    List (Row × Bool) :=
  filterDecisions (db.withholds rule.id (now - rule.suppressionWindowHours * DateTime.hour))
    rule.suppressionKeyField [] rows

/-- The dictionary of the filter, after the decisions made so far. -/
def AttemptRecord.suppressionState (r : AttemptRecord) (field : String) :
    Option SuppressionState :=
  r.now.map fun now => SuppressionState.record { now } field r.decisions

/-- What holds of the record of an attempt at the rule `rule`, made while the session saw
the database `db`, wherever the attempt stopped. -/
structure AttemptRecord.Follows (libs : Libraries) (db : Db) (rule : AlertRule)
    (r : AttemptRecord) : Prop where
  /-- there is a filter exactly when suppression is on -/
  now_isSome : r.queried = true → (r.now.isSome = true ↔ rule.Suppresses)
  /-- the decisions are the filter's, in order -/
  decided : r.decisions ≠ [] → ∃ now rows, r.now = some now ∧ r.fetched = some rows ∧
    r.decisions <+: suppressionDecisions db rule now rows
  /-- the rows left are those the filter kept, or all of them when there is none -/
  filtered : ∀ kept, r.filtered = some kept → ∃ rows, r.queried = true ∧ r.fetched = some rows ∧
    ((r.now = none ∧ r.decisions = [] ∧ kept = rows) ∨
      ∃ now, r.now = some now ∧ r.decisions = suppressionDecisions db rule now rows ∧
        kept = rowsDecided true r.decisions)
  /-- the messages are built from the rows left -/
  built : ∀ messages, r.built = some messages →
    ∃ kept, r.filtered = some kept ∧ kept ≠ [] ∧ buildMessages libs rule kept = .ok messages
  /-- what was handed over is a prefix of the messages built -/
  handed : r.handed ≠ [] →
    ∃ messages, r.built = some messages ∧ r.handed.map Delivery.message <+: messages

/-- How the result of an attempt belongs to its record. -/
inductive Outcome (r : AttemptRecord) : ExecutionResult → Prop
  /-- a step before the first message raised -/
  | failed (exc : PyExc) (result : ExecutionResult) (hcaught : r.caught = some exc)
      (hbuilt : r.built = none) (hhanded : r.handed = [])
      (hstatus : result.status = .failed) (htype : result.errorType ≠ "")
      (hmessage : result.errorMessage.getD "" ≠ "") (hmails : result.mailResults = [])
      (hcount : result.mailCount = 0)
      (hrows : r.filtered.isSome = true → ∃ rows, r.fetched = some rows ∧
        result.rowCount = rows.length) :
      Outcome r result
  /-- the query and the filter left no row -/
  | empty (rows : List Row) (hfetched : r.fetched = some rows) (hfiltered : r.filtered = some [])
      (hbuilt : r.built = none) (hhanded : r.handed = []) (hcaught : r.caught = none) :
      Outcome r { status := .success, rowCount := rows.length }
  /-- every message was built and handed over -/
  | sent (rows : List Row) (messages : List EmailMessage)
      (mailResults : List ExecutionMailResult) (hfetched : r.fetched = some rows)
      (hbuilt : r.built = some messages) (hcaught : r.caught = none)
      (hhanded : r.handed.map Delivery.message = messages)
      (hanswers : List.Forall₂ Delivery.Answered r.handed mailResults) :
      Outcome r (sentResult rows.length mailResults)

theorem exceptionMessage_ne (exc : PyExc) : exceptionMessage exc ≠ "" := by
  unfold exceptionMessage
  split
  · assumption
  · exact exc.typeName_ne

/-! ## The executor -/

theorem SQL_QUERY_FAILURE_ne : SQL_QUERY_FAILURE ≠ "" := by decide

variable {rule : AlertRule} {now : Option DateTime}

/-- `except Exception` turns the exception into its result or lets it pass. -/
theorem handleException_wp {exc : PyExc} {result : ExecutionResult}
    {Q : ExecutionResult → World → Prop} {E : PyExc → World → Prop}
    (hok : Q result (w.inAttempt n ru st { r with caught := some exc }))
    (herr : exc.isException = false → E exc (w.inAttempt n ru st r)) :
    wp (handleException exc result) Q E (w.inAttempt n ru st r) := by
  unfold handleException
  by_cases he : exc.isException
  · simp only [he, if_true, wp_bind]
    exact noteAttempt_wp hok
  · simp only [he]
    exact herr (by simpa using he)

/-- The filter built for an attempt that read `now`. -/
def rowFilterFor (env : RunEnv) (rule : AlertRule) (now : Option DateTime) :
    Option (List Row → Svc (List Row)) :=
  now.map fun t => filterRows env rule (t - rule.suppressionWindowHours * DateTime.hour)

theorem AttemptRecord.suppressionState_congr {r r' : AttemptRecord} {field : String}
    (hnow : r.now = r'.now) (hdec : r.decisions = r'.decisions) :
    r.suppressionState field = r'.suppressionState field := by
  rw [AttemptRecord.suppressionState, AttemptRecord.suppressionState, hnow, hdec]

/-- The record after the rows have been fetched and some have been decided. -/
def AttemptRecord.deciding (now : Option DateTime) (rows : List Row)
    (decisions : List (Row × Bool)) : AttemptRecord :=
  { now, queried := true, fetched := some rows, decisions }

/-- The rows of a query go through the filter, if there is one. -/
theorem rowFilter_wp {rows : List Row} {Q : List Row → World → Prop} {E : PyExc → World → Prop}
    (hp : w.store.pending = [])
    (hok : ∀ n decisions kept,
      (now = none ∧ decisions = [] ∧ kept = rows) ∨
        (∃ t, now = some t ∧ decisions = suppressionDecisions w.store.work rule t rows ∧
          kept = rowsDecided true decisions) →
      Q kept (w.inAttempt n ru
        ((AttemptRecord.deciding now rows decisions).suppressionState rule.suppressionKeyField)
        (.deciding now rows decisions)))
    (herr : ∀ e n decisions t, now = some t →
      decisions <+: suppressionDecisions w.store.work rule t rows →
      E e (w.inAttempt n ru
        ((AttemptRecord.deciding now rows decisions).suppressionState rule.suppressionKeyField)
        (.deciding now rows decisions))) :
    wp (applyRowFilter (rowFilterFor env rule now) rows) Q E
      (w.inAttempt n ru
        ((AttemptRecord.deciding now rows []).suppressionState rule.suppressionKeyField)
        (.deciding now rows [])) := by
  cases now with
  | none => exact hok n [] rows (.inl ⟨rfl, rfl, rfl⟩)
  | some t =>
      have hstate : ∀ m made,
          (w.inAttempt n ru ((AttemptRecord.deciding (some t) rows []).suppressionState
              rule.suppressionKeyField) (.deciding (some t) rows [])).decided m
              rule.suppressionKeyField made =
            w.inAttempt m ru ((AttemptRecord.deciding (some t) rows made).suppressionState
              rule.suppressionKeyField) (.deciding (some t) rows made) := by
        intro m made
        simp [World.decided, World.inAttempt, AttemptRecord.suppressionState,
          AttemptRecord.deciding, SuppressionState.record]
      refine filterRows_wp hp rfl
        (fun m decisions hd => ?_) fun e m made hmade => ?_
      · rw [hstate]
        exact hok m decisions _ (.inr ⟨t, rfl, hd, rfl⟩)
      · rw [hstate]
        exact herr e m made t rfl hmade

theorem AttemptRecord.Follows.start (libs : Libraries) (db : Db) (rule : AlertRule)
    (now : Option DateTime) : AttemptRecord.Follows libs db rule { now } where
  now_isSome h := by cases h
  decided h := absurd rfl h
  filtered _ h := by cases h
  built _ h := by cases h
  handed h := absurd rfl h

theorem AttemptRecord.Follows.queried {db : Db} (hnow : now.isSome = true ↔ rule.Suppresses) :
    AttemptRecord.Follows libs db rule { now, queried := true } where
  now_isSome _ := hnow
  decided h := absurd rfl h
  filtered _ h := by cases h
  built _ h := by cases h
  handed h := absurd rfl h

theorem AttemptRecord.Follows.deciding {db : Db} {rows : List Row}
    {decisions : List (Row × Bool)} (hnow : now.isSome = true ↔ rule.Suppresses)
    (hdec : decisions ≠ [] → ∃ t, now = some t ∧
      decisions <+: suppressionDecisions db rule t rows) :
    AttemptRecord.Follows libs db rule (.deciding now rows decisions) where
  now_isSome _ := hnow
  decided h := by
    obtain ⟨t, ht, hpre⟩ := hdec h
    exact ⟨t, rows, ht, rfl, hpre⟩
  filtered _ h := by cases h
  built _ h := by cases h
  handed h := absurd rfl h

/-- The rows left are recorded. -/
theorem AttemptRecord.Follows.filter {db : Db} {rows kept : List Row}
    {decisions : List (Row × Bool)} (hnow : now.isSome = true ↔ rule.Suppresses)
    (hkept : (now = none ∧ decisions = [] ∧ kept = rows) ∨
      ∃ t, now = some t ∧ decisions = suppressionDecisions db rule t rows ∧
        kept = rowsDecided true decisions) :
    AttemptRecord.Follows libs db rule
      { AttemptRecord.deciding now rows decisions with filtered := some kept } where
  now_isSome _ := hnow
  decided h := by
    obtain ⟨-, hnil, -⟩ | ⟨t, ht, heq, -⟩ := hkept
    · exact absurd hnil h
    · exact ⟨t, rows, ht, rfl, heq ▸ List.prefix_rfl⟩
  filtered kept' h := by
    cases h
    exact ⟨rows, rfl, rfl, hkept⟩
  built _ h := by cases h
  handed h := absurd rfl h

/-- Messages are built from the rows left, and some are handed over. -/
theorem AttemptRecord.Follows.send {db : Db} {kept : List Row} {messages : List EmailMessage}
    {ds : List Delivery} (h : r.Follows libs db rule) (hfiltered : r.filtered = some kept)
    (hne : kept ≠ []) (hbuilt : buildMessages libs rule kept = .ok messages)
    (hds : ds.map Delivery.message <+: messages) :
    AttemptRecord.Follows libs db rule { r with built := some messages, handed := ds } where
  now_isSome := h.now_isSome
  decided := h.decided
  filtered := h.filtered
  built messages' hm := by
    cases hm
    exact ⟨kept, hfiltered, hne, hbuilt⟩
  handed _ := ⟨messages, rfl, hds⟩

/-- Neither what was caught nor what was returned matters. -/
theorem AttemptRecord.Follows.close {db : Db} (h : r.Follows libs db rule)
    (caught : Option PyExc) (returned : Option ExecutionAttempt) :
    AttemptRecord.Follows libs db rule { r with caught, returned } where
  now_isSome := h.now_isSome
  decided := h.decided
  filtered := h.filtered
  built := h.built
  handed := h.handed

/-- Building and sending the messages of the rows left.  `P` is any property of the
record that catching an exception and sending messages built from these rows keep. -/
theorem buildAndSend_wp {mailer : Mailer} {rows kept : List Row} {P : AttemptRecord → Prop}
    {decisions : List (Row × Bool)} {Q : ExecutionResult → World → Prop}
    {E : PyExc → World → Prop} (hr : r = { AttemptRecord.deciding now rows decisions with
      filtered := some kept }) (hP : P r) (hcatch : ∀ exc, P { r with caught := some exc })
    (hsend : ∀ messages ds, kept ≠ [] → buildMessages libs rule kept = .ok messages →
      ds.map Delivery.message <+: messages → P { r with built := some messages, handed := ds })
    (hok : ∀ r' result, r'.now = r.now → r'.decisions = r.decisions → r'.returned = none →
      P r' → Outcome r' result → Q result (w.inAttempt n ru st r'))
    (herr : ∀ e r', e.isException = false → r'.now = r.now → r'.decisions = r.decisions →
      r'.returned = none → P r' → E e (w.inAttempt n ru st r')) :
    wp (buildAndSend libs mailer rule rows.length kept) Q E (w.inAttempt n ru st r) := by
  subst hr
  unfold buildAndSend
  by_cases hkept : kept = []
  · subst hkept
    exact hok _ _ rfl rfl rfl hP (.empty rows rfl rfl rfl rfl rfl)
  · rw [if_neg hkept]
    cases hb : buildMessages libs rule kept with
    | error exc =>
        refine handleException_wp (hok _ _ rfl rfl rfl (hcatch exc) ?_)
          fun he => herr exc _ he rfl rfl rfl hP
        exact .failed exc _ rfl rfl rfl rfl exc.typeName_ne (exceptionMessage_ne exc) rfl rfl
          fun _ => ⟨rows, rfl, rfl⟩
    | ok messages =>
        rw [wp_bind]
        refine noteAttempt_wp ?_
        rw [wp_bind]
        refine sendMessages_wp (buildMessages_recipients hb) (fun ds mailResults hds ha => ?_)
          fun e ds he hds => ?_
        · exact hok _ _ rfl rfl rfl (hsend messages ds hkept hb (hds ▸ List.prefix_rfl))
            (.sent rows messages mailResults rfl rfl rfl hds ha)
        · exact herr e _ he rfl rfl rfl (hsend messages ds hkept hb hds)

/-- **The executor.** -/
theorem execute_wp {sqlClient : SqlClient} {mailer : Mailer}
    {Q : ExecutionResult → World → Prop} {E : PyExc → World → Prop}
    (hp : w.store.pending = []) (hnow : now.isSome = true ↔ rule.Suppresses)
    (hok : ∀ n r result, r.now = now → r.returned = none →
      r.Follows libs w.store.work rule → Outcome r result →
      Q result (w.inAttempt n ru (r.suppressionState rule.suppressionKeyField) r))
    (herr : ∀ e n r, (e.isException = true → r.filtered = none) → r.returned = none →
      r.Follows libs w.store.work rule →
      E e (w.inAttempt n ru (r.suppressionState rule.suppressionKeyField) r)) :
    wp (execute libs sqlClient mailer rule (rowFilterFor env rule now)) Q E
      (w.inAttempt n ru (AttemptRecord.suppressionState { now } rule.suppressionKeyField)
        { now }) := by
  unfold execute
  cases libs.validateSelectOnlySql rule.sqlText with
  | error exc =>
      have hf := AttemptRecord.Follows.start libs w.store.work rule now
      refine handleException_wp (hok n _ _ rfl rfl (hf.close (some exc) none) ?_)
        fun _ => herr exc n _ (fun _ => rfl) rfl hf
      exact .failed exc _ rfl rfl rfl rfl exc.typeName_ne (exceptionMessage_ne exc) rfl rfl
        (fun h => by cases h)
  | ok _ =>
      rw [wp_bind]
      refine noteAttempt_wp ?_
      cases sqlClient rule.sqlText rule.queryTimeoutSeconds rule.maxRows with
      | error exc =>
          have hf : AttemptRecord.Follows libs w.store.work rule { now, queried := true } :=
            .queried hnow
          refine handleException_wp (hok n _ _ rfl rfl (hf.close (some exc) none) ?_)
            fun _ => herr exc n _ (fun _ => rfl) rfl hf
          exact .failed exc _ rfl rfl rfl rfl exc.typeName_ne SQL_QUERY_FAILURE_ne rfl rfl
            (fun h => by cases h)
      | ok queryResult =>
          rw [wp_bind]
          refine noteAttempt_wp ?_
          rw [wp_bind]
          refine rowFilter_wp hp (fun m decisions kept hkept => ?_)
            fun e m decisions t ht hpre => ?_
          · rw [wp_bind]
            have hf : AttemptRecord.Follows libs w.store.work rule
                { AttemptRecord.deciding now queryResult.rows decisions with
                  filtered := some kept } := .filter hnow hkept
            refine noteAttempt_wp (buildAndSend_wp rfl hf (fun exc => hf.close (some exc) none)
              (fun messages ds hne hb hds => hf.send rfl hne hb hds)
              (fun r' result hrnow hrdec hret hf hout => ?_)
              fun e r' he hrnow hrdec hret hf => ?_)
            · have h := hok m r' result hrnow hret hf hout
              rwa [AttemptRecord.suppressionState_congr hrnow hrdec] at h
            · have h := herr e m r' (fun h => by rw [he] at h; cases h) hret hf
              rwa [AttemptRecord.suppressionState_congr hrnow hrdec] at h
          · exact herr e m _ (fun _ => rfl) rfl (.deciding hnow fun _ => ⟨t, ht, hpre⟩)

/-! ## One attempt -/

/-- The session is between two transactions and holds nothing, and the rule is there. -/
structure World.Ready (w : World) (ruleId : Nat) (rule : AlertRule) : Prop where
  pending : w.store.pending = []
  found : w.store.work.findRule ruleId = some rule
  fresh : w.rule = none ∨ w.rule = some rule

theorem World.Ready.readRule_wp {ruleId : Nat} {Q : AlertRule → World → Prop}
    {E : PyExc → World → Prop} (h : w.Ready ruleId rule)
    (hok : ∀ n, Q rule { w with ops := n, rule := some rule })
    (herr : ∀ e n r, (r = none ∨ r = some rule) → E e { w with ops := n, rule := r }) :
    wp (readRule env ruleId) Q E w := by
  have hfresh : w.RuleFresh ruleId := by
    unfold World.RuleFresh
    rw [h.found]
    exact h.fresh
  refine EarlyWarning.readRule_wp h.pending hfresh (fun n found hfound => ?_)
    fun e n r hr => herr e n r (h.found ▸ hr)
  rw [h.found] at hfound
  cases hfound
  exact hok n

theorem getEnabledDataSource_wp {Q : SqlDataSource → World → Prop} {E : PyExc → World → Prop}
    (hp : w.store.pending = []) (hok : ∀ n source, Q source { w with ops := n })
    (herr : ∀ e n, E e { w with ops := n }) :
    wp (getEnabledDataSource env rule) Q E w := by
  unfold getEnabledDataSource
  rw [wp_bind]
  refine sessionSelect_wp hp (fun n => ?_) herr
  rw [wp_bind, wp_get]
  split
  · exact herr _ n
  · split
    · exact hok n _
    · exact herr _ n

theorem getEnabledSmtpConfig_wp {Q : SmtpConfig → World → Prop} {E : PyExc → World → Prop}
    (hp : w.store.pending = []) (hok : ∀ n config, Q config { w with ops := n })
    (herr : ∀ e n, E e { w with ops := n }) :
    wp (getEnabledSmtpConfig env) Q E w := by
  unfold getEnabledSmtpConfig
  rw [wp_bind]
  refine sessionSelect_wp hp (fun n => ?_) herr
  rw [wp_bind, wp_get]
  split
  · exact herr _ n
  · exact hok n _
  · exact herr _ n

theorem liftExcept_wp {α : Type} {x : Except PyExc α} {Q : α → World → Prop}
    {E : PyExc → World → Prop} (hok : ∀ a, x = .ok a → Q a w) (herr : ∀ e, E e w) :
    wp (liftExcept x) Q E w := by
  cases x with
  | ok a => exact hok a rfl
  | error e => exact herr e

theorem suppressionCutoff_ok {t cutoff : DateTime} {windowHours : Int}
    (h : suppressionCutoff t windowHours = .ok cutoff) :
    cutoff = t - windowHours * DateTime.hour := by
  obtain ⟨window, hwindow, hadd⟩ := bind_eq_ok.mp h
  unfold DateTime.timedelta at hwindow
  unfold DateTime.add at hadd
  split at hwindow
  · cases hwindow
    split at hadd
    · cases hadd
      exact Int.sub_eq_add_neg.symm
    · cases hadd
  · cases hwindow

/-- The filter is built when suppression is on, for the time the attempt reads. -/
theorem buildSuppressionFilter_wp {attempt : AttemptEnv}
    {Q : Option (List Row → Svc (List Row)) → World → Prop} {E : PyExc → World → Prop}
    (hok : ∀ now, (now.isSome = true ↔ rule.Suppresses) →
      Q (rowFilterFor env rule now) (w.inAttempt n ru
        (AttemptRecord.suppressionState { now } rule.suppressionKeyField) { now }))
    (herr : ∀ e st now, E e (w.inAttempt n ru st { now })) :
    wp (buildSuppressionFilter env attempt rule) Q E (w.inAttempt n ru st {}) := by
  unfold buildSuppressionFilter
  rw [wp_bind, wp_modify]
  by_cases hs : rule.suppressDuplicates = true ∧ rule.suppressionKeyField ≠ ""
  · rw [if_pos hs, wp_bind]
    show wp _ _ _ (w.inAttempt n ru none {})
    refine noteAttempt_wp ?_
    rw [wp_bind]
    refine liftExcept_wp (fun cutoff hcut => ?_) fun e => herr e none _
    rw [wp_bind, wp_modify, wp_pure, suppressionCutoff_ok hcut]
    exact hok (some attempt.now) ⟨fun _ => hs, fun _ => rfl⟩
  · rw [if_neg hs, wp_pure]
    exact hok none ⟨fun h => by simp at h, fun h => absurd h hs⟩

/-- The `try` block of an attempt. -/
theorem attemptRule_wp {attempt : AttemptEnv} {ruleId : Nat}
    {Q : ExecutionAttempt → World → Prop} {E : PyExc → World → Prop}
    (hw : w.Ready ruleId rule)
    (hok : ∀ n r result, r.returned = none → r.Follows libs w.store.work rule →
      Outcome r result →
      Q { result, suppressionState := r.suppressionState rule.suppressionKeyField }
        (w.inAttempt n (some rule) (r.suppressionState rule.suppressionKeyField) r))
    (herr : ∀ e n ru st r, (ru = none ∨ ru = some rule) →
      (e.isException = true → r.filtered = none) → r.returned = none →
      r.Follows libs w.store.work rule → E e (w.inAttempt n ru st r)) :
    wp (attemptRule libs env attempt ruleId) Q E (w.inAttempt n w.rule st {}) := by
  have hp := hw.pending
  have hready : (w.inAttempt n w.rule st {}).Ready ruleId rule := ⟨hp, hw.found, hw.fresh⟩
  have hearly : ∀ e n ru st now, (ru = none ∨ ru = some rule) →
      E e (w.inAttempt n ru st { now }) := fun e n ru st now hru =>
    herr e n ru st _ hru (fun _ => rfl) rfl (.start libs _ rule now)
  unfold attemptRule
  rw [wp_bind]
  refine hready.readRule_wp (fun n => ?_) fun e n ru hru => hearly e n ru st none hru
  rw [wp_bind]
  refine getEnabledDataSource_wp hp (fun n source => ?_) fun e n =>
    hearly e n _ st none (.inr rfl)
  rw [wp_bind]
  refine getEnabledSmtpConfig_wp hp (fun n config => ?_) fun e n =>
    hearly e n _ st none (.inr rfl)
  rw [wp_bind]
  refine buildSuppressionFilter_wp (fun now hnow => ?_) fun e st now =>
    hearly e n _ st now (.inr rfl)
  rw [wp_bind]
  refine liftExcept_wp (fun sqlClient _ => ?_) fun e => hearly e n _ _ now (.inr rfl)
  rw [wp_bind]
  refine liftExcept_wp (fun mailer _ => ?_) fun e => hearly e n _ _ now (.inr rfl)
  rw [wp_bind]
  refine execute_wp hp hnow (fun n r result _ hret hf hout => ?_) fun e n r hflt hret hf =>
    herr e n _ _ r (.inr rfl) hflt hret hf
  rw [wp_bind, wp_get, wp_pure]
  exact hok n r result hret hf hout

/-- Without rows left there is no message. -/
theorem AttemptRecord.Follows.nothing_built {db : Db} (h : r.Follows libs db rule)
    (hflt : r.filtered = none) : r.built = none ∧ r.handed = [] := by
  have hbuilt : r.built = none := by
    cases hb : r.built with
    | none => rfl
    | some messages =>
        obtain ⟨kept, hkept, -⟩ := h.built messages hb
        rw [hflt] at hkept
        cases hkept
  refine ⟨hbuilt, ?_⟩
  by_contra hne
  obtain ⟨messages, hm, -⟩ := h.handed hne
  rw [hbuilt] at hm
  cases hm

theorem RULE_EXECUTION_FAILURE_ne : RULE_EXECUTION_FAILURE ≠ "" := by decide

/-- The handlers turn an exception into a failed result, or let it pass. -/
theorem handleAttemptFailure_wp {ruleId : Nat} {exc : PyExc}
    {Q : ExecutionAttempt → World → Prop} {E : PyExc → World → Prop}
    (hw : w.Ready ruleId rule) (hru : ru = none ∨ ru = some rule)
    (hflt : exc.isException = true → r.filtered = none) (hret : r.returned = none)
    (hf : r.Follows libs w.store.work rule)
    (hok : ∀ n ru r result, (ru = none ∨ ru = some rule) → r.returned = none →
      r.Follows libs w.store.work rule → Outcome r result → result.status = .failed →
      Q { result } (w.inAttempt n ru st r))
    (herr : ∀ e n ru, (ru = none ∨ ru = some rule) → E e (w.inAttempt n ru st r)) :
    wp (handleAttemptFailure env ruleId exc) Q E (w.inAttempt n ru st r) := by
  have hready : (w.inAttempt n ru st r).Ready ruleId rule := ⟨hw.pending, hw.found, hru⟩
  unfold handleAttemptFailure
  by_cases hconf : exc.cls = .configurationError
  · rw [if_pos hconf, wp_bind]
    have hexc : exc.isException = true := by
      rw [PyExc.isException, hconf]
      rfl
    obtain ⟨hbuilt, hhanded⟩ := hf.nothing_built (hflt hexc)
    refine noteAttempt_wp (hok n ru _ _ hru hret (hf.close (some exc) r.returned) ?_ rfl)
    exact .failed exc _ rfl hbuilt hhanded rfl (show "ConfigurationError" ≠ "" by decide)
      (exc.text_ne hconf) rfl rfl fun h => by simp [hflt hexc] at h
  · rw [if_neg hconf]
    by_cases hexc : exc.isException = true
    · rw [if_pos hexc, wp_bind]
      obtain ⟨hbuilt, hhanded⟩ := hf.nothing_built (hflt hexc)
      refine hready.readRule_wp (fun m => ?_) fun e m ru' hru' => herr e m ru' hru'
      rw [wp_bind]
      refine noteAttempt_wp (w := w)
        (hok m (some rule) _ _ (.inr rfl) hret (hf.close (some exc) r.returned) ?_ rfl)
      exact .failed exc _ rfl hbuilt hhanded rfl exc.typeName_ne RULE_EXECUTION_FAILURE_ne
        rfl rfl fun h => by simp [hflt hexc] at h
    · rw [if_neg hexc]
      exact herr exc n ru hru

/-- An attempt at the rule, made while the session saw the database `db`, returned. -/
structure AttemptRecord.Returned (libs : Libraries) (db : Db) (rule : AlertRule)
    (r : AttemptRecord) (attempt : ExecutionAttempt) : Prop where
  returned : r.returned = some attempt
  follows : r.Follows libs db rule
  outcome : Outcome r attempt.result
  /-- a result that is not failed comes with the dictionary of the filter -/
  state : attempt.result.status ≠ .failed →
    attempt.suppressionState = r.suppressionState rule.suppressionKeyField

/-- What an attempt returned does not matter for how its result came about. -/
theorem Outcome.close {result : ExecutionResult} (h : Outcome r result)
    (returned : Option ExecutionAttempt) : Outcome { r with returned } result := by
  cases h with
  | failed exc _ h1 h2 h3 h4 h5 h6 h7 h8 h9 => exact .failed exc _ h1 h2 h3 h4 h5 h6 h7 h8 h9
  | empty rows h1 h2 h3 h4 h5 => exact .empty rows h1 h2 h3 h4 h5
  | sent rows ms rs h1 h2 h3 h4 h5 => exact .sent rows ms rs h1 h2 h3 h4 h5

/-- **One attempt.**  It leaves the database, the session and the earlier attempts alone;
its record says what it did, and its result belongs to the record. -/
theorem executeRuleOnce_wp {ruleId : Nat} {Q : ExecutionAttempt → World → Prop}
    {E : PyExc → World → Prop} (hw : w.Ready ruleId rule)
    (hok : ∀ n ru st r attempt, (ru = none ∨ ru = some rule) →
      r.Returned libs w.store.work rule attempt → Q attempt (w.inAttempt n ru st r))
    (herr : ∀ e n ru st r, (ru = none ∨ ru = some rule) → r.returned = none →
      r.Follows libs w.store.work rule → E e (w.inAttempt n ru st r)) :
    wp (executeRuleOnce libs env ruleId) Q E w := by
  unfold executeRuleOnce
  rw [wp_bind, wp_get, wp_bind, wp_set, wp_bind, wp_tryCatch]
  refine attemptRule_wp hw (fun n r result _ hf hout => ?_)
    fun e n ru st r hru hflt hret hf => ?_
  · rw [wp_bind]
    exact noteAttempt_wp
      (hok n _ _ _ _ (.inr rfl) ⟨rfl, hf.close _ _, hout.close _, fun _ => rfl⟩)
  · refine handleAttemptFailure_wp hw hru hflt hret hf
      (fun n ru r result hru _ hf hout hstatus => ?_)
      fun e n ru hru => herr e n ru st r hru hret hf
    rw [wp_bind]
    exact noteAttempt_wp
      (hok n _ _ _ _ hru ⟨rfl, hf.close _ _, hout.close _, fun h => absurd hstatus h⟩)

end EarlyWarning
