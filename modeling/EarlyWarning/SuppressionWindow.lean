/-
# `SuppressionWindow` — no key is sent twice within its window

Histories of a rule whose suppression settings stay the same (`SuppressesBy`), under a clock
that does not go back between two readings (`ClockForward`).  Other rules may run in between.

`no_resend`: a key that a successful run has seen at `t` is in no message of a later attempt
that reads a time up to `t` plus the window.  What carries it is `Db.SeenSince`: once the
ledger knows the key to have been seen at `t` or later, every later run keeps it so.
-/
import EarlyWarning.History
import Mathlib.Algebra.Order.Ring.Int
import Mathlib.Tactic.Linarith

namespace EarlyWarning

open Lib

/-! ## Readings of the clock -/

/-- The times the attempts of a run read, in order. -/
def Report.readings (report : Report) : List DateTime :=
  report.world.attemptsInOrder.filterMap (·.now)

/-- The clock does not go back between the readings of a history. -/
def ClockForward (reports : List Report) : Prop :=
  (reports.flatMap Report.readings).Pairwise (· ≤ ·)

instance (reports : List Report) : Decidable (ClockForward reports) :=
  inferInstanceAs (Decidable (List.Pairwise _ _))

/-- What is read in one part of a history is not later than what is read in the next. -/
theorem ClockForward.ordered {past later : List Report} (h : ClockForward (past ++ later))
    {earlier : Report} (hearlier : earlier ∈ past) {t : DateTime} (ht : t ∈ earlier.readings) :
    ∀ report ∈ later, ∀ now ∈ report.readings, t ≤ now := by
  unfold ClockForward at h
  rw [List.flatMap_append] at h
  have hcross := (List.pairwise_append.mp h).2.2
  exact fun report hm now hnow => hcross t (List.mem_flatMap.mpr ⟨earlier, hearlier, ht⟩) now
    (List.mem_flatMap.mpr ⟨report, hm, hnow⟩)

/-- Whenever the rule is found, it suppresses duplicates by this column within so many
hours. -/
def SuppressesBy (ruleId : Nat) (field : String) (hours : Int) (entries : List HistoryEntry) :
    Prop :=
  ∀ entry ∈ entries, ∀ rule, entry.config.alertRules.find? (fun r => r.id = ruleId) = some rule →
    rule.Suppresses ∧ rule.suppressionKeyField = field ∧ rule.suppressionWindowHours = hours

/-! ## Rows in messages -/

/-- The message is built from this row, among the rows kept. -/
def CarriesRow (libs : Libraries) (rule : AlertRule) (kept : List Row) (message : EmailMessage)
    (row : Row) : Prop :=
  row ∈ kept ∧
  match rule.sendMode with
  | .summary => buildSummaryMessage libs rule (messageContext rule kept) kept = .ok message
  | .perRow => buildRowMessage libs rule (messageContext rule kept) row = .ok message

/-- The attempt built this message from this row. -/
def AttemptRecord.Builds (libs : Libraries) (rule : AlertRule) (r : AttemptRecord)
    (message : EmailMessage) (row : Row) : Prop :=
  ∃ kept messages, r.filtered = some kept ∧ r.built = some messages ∧ message ∈ messages ∧
    CarriesRow libs rule kept message row

/-- The attempt handed this message, built from this row, to the mailer. -/
def AttemptRecord.Hands (libs : Libraries) (rule : AlertRule) (r : AttemptRecord)
    (d : Delivery) (row : Row) : Prop :=
  d ∈ r.handed ∧ r.Builds libs rule d.message row

section

variable {libs : Libraries} {rule : AlertRule} {db : Db} {r : AttemptRecord}

theorem buildMessages_carries {kept : List Row} {messages : List EmailMessage} {row : Row}
    (h : buildMessages libs rule kept = .ok messages) (hrow : row ∈ kept) :
    ∃ message ∈ messages, CarriesRow libs rule kept message row := by
  unfold buildMessages at h
  unfold CarriesRow
  cases hm : rule.sendMode with
  | summary =>
      simp only [hm] at h
      obtain ⟨message, hmsg, h⟩ := bind_eq_ok.mp h
      cases h
      exact ⟨message, List.mem_singleton.mpr rfl, hrow, hmsg⟩
  | perRow =>
      simp only [hm] at h
      obtain ⟨message, hmem, hmsg⟩ := mapM_mem_result h hrow
      exact ⟨message, hmem, hrow, hmsg⟩

/-! ## Attempts and runs of a history -/

/-- Every attempt of a run is one at the rule it found, and follows the database the run
started on. -/
theorem runEntry_follows (libs : Libraries) (db : Db) (entry : HistoryEntry) :
    ∀ r ∈ (runEntry libs db entry).world.attempts, ∃ rule,
      (runEntry libs db entry).before.findRule entry.request.ruleId = some rule ∧
      r.Follows libs (runEntry libs db entry).before rule := by
  have hrun := runEntry_run libs db entry
  generalize runEntry libs db entry = report at hrun ⊢
  generalize report.outcome = outcome at hrun
  generalize report.world = world at hrun ⊢
  cases hrun with
  | refused e _ leases hattempts =>
      intro r hr
      rw [hattempts] at hr
      cases hr
  | ran rule body _ after leases _ hfound _ hbody =>
      generalize world.attempts = attempts at hbody ⊢
      generalize world.sleeps = sleeps at hbody
      have hend : ∀ {last earlier attempt},
          LoopEnd libs report.before rule entry.request last earlier attempt →
          ∀ r ∈ last :: earlier, r.Follows libs report.before rule := by
        intro last earlier attempt hend r hr
        obtain rfl | hr := List.mem_cons.mp hr
        · exact hend.returned.follows
        · obtain ⟨_, hret, -⟩ := hend.retried r hr
          exact hret.follows
      have hfollows : ∀ r ∈ attempts, r.Follows libs report.before rule := by
        cases hbody with
        | interrupted e _ _ hfollows => exact hfollows
        | unsaved e last earlier attempt h => exact hend h
        | saved _ last earlier attempt h => exact hend h
      exact fun r hr => ⟨rule, hfound, hfollows r hr⟩

/-- A history splits where its reports do. -/
theorem runAll_split : ∀ {pre : List Report} {entries : List HistoryEntry} {db : Db}
    {report : Report} {post : List Report},
    runAll libs db entries = pre ++ report :: post →
    ∃ db' entry rest, report = runEntry libs db' entry ∧ entry ∈ entries ∧
      post = runAll libs report.after rest ∧ ∀ e ∈ rest, e ∈ entries
  | [], entry :: rest, db, report, post, h => by
      obtain ⟨rfl, rfl⟩ := List.cons.inj h
      exact ⟨db, entry, rest, rfl, List.mem_cons_self, rfl, fun e he => List.mem_cons_of_mem _ he⟩
  | _ :: pre, entry :: rest, db, report, post, h => by
      obtain ⟨-, h⟩ := List.cons.inj h
      obtain ⟨db', entry', rest', hreport, hentry, hpost, hrest⟩ := runAll_split h
      exact ⟨db', entry', rest', hreport, List.mem_cons_of_mem _ hentry, hpost,
        fun e he => List.mem_cons_of_mem _ (hrest e he)⟩
  | [], [], _, _, _, h => by cases h
  | _ :: _, [], _, _, _, h => by cases h

/-! ## Seen since -/

/-- The ledger knows the key to have been seen at `t` or later. -/
def Db.SeenSince (db : Db) (ruleId : Nat) (key : String) (t : DateTime) : Prop :=
  ∃ s, db.sighting ruleId key = some s ∧ t ≤ s.lastSeenAt

variable {ruleId : Nat} {key : String} {t : DateTime}

theorem Db.SeenSince.congr {db' : Db} (h : db.SeenSince ruleId key t)
    (hsame : db'.suppressions = db.suppressions) : db'.SeenSince ruleId key t := by
  obtain ⟨s, hs, ht⟩ := h
  exact ⟨s, (Db.sighting_congr hsame ruleId key).trans hs, ht⟩

/-- The filter withholds a key that has been seen since the cutoff. -/
theorem Db.withholds_iff {cutoff : DateTime} :
    db.withholds ruleId cutoff key = true ↔ db.SeenSince ruleId key cutoff := by
  unfold Db.withholds Db.SeenSince Db.sighting
  cases db.findSuppression ruleId key with
  | none => simp
  | some record => simp [AlertSuppression.sighting]

theorem Db.SeenSince.mono {t' : DateTime} (h : db.SeenSince ruleId key t) (ht : t' ≤ t) :
    db.SeenSince ruleId key t' := by
  obtain ⟨s, hs, hseen⟩ := h
  exact ⟨s, hs, le_trans ht hseen⟩

section

variable {report : Report} {now : DateTime} {rows : List Row} {last : AttemptRecord}
  {earlier : List AttemptRecord} {final : ExecutionAttempt}

/-- A successful run reads the time it records. -/
theorem Report.Succeeded.now_mem
    (h : report.Succeeded libs rule now rows last earlier final) : now ∈ report.readings := by
  rw [Report.readings, World.attemptsInOrder, h.attempts]
  exact List.mem_filterMap.mpr ⟨last, by simp, h.now_eq⟩

/-- A successful run has seen the keys of its rows. -/
theorem Report.Succeeded.seenSince
    (h : report.Succeeded libs rule now rows last earlier final)
    (hok : LedgerOk report.before.suppressions) {row : Row} (hrow : row ∈ rows)
    (hkey : rowSuppressionKey row rule.suppressionKeyField ≠ "") :
    report.after.SeenSince report.request.ruleId
      (rowSuppressionKey row rule.suppressionKeyField) now := by
  have hcount : keyCount rule.suppressionKeyField rows
      (rowSuppressionKey row rule.suppressionKeyField) ≠ 0 := by
    refine Nat.pos_iff_ne_zero.mp (List.countP_pos_iff.mpr ⟨row, hrow, ?_⟩)
    exact decide_eq_true rfl
  have hsight := h.sighting hok report.request.ruleId hkey
  rw [if_pos rfl, see_iterate, if_neg hcount] at hsight
  exact ⟨_, hsight, le_refl now⟩

/-- A run that does not read an earlier time keeps what has been seen since. -/
theorem runEntry_seenSince {entry : HistoryEntry} (hok : LedgerOk db.suppressions)
    (hkey : key ≠ "") (hclock : ∀ now ∈ (runEntry libs db entry).readings, t ≤ now)
    (h : db.SeenSince ruleId key t) :
    (runEntry libs db entry).after.SeenSince ruleId key t := by
  obtain ⟨-, hsame⟩ | ⟨rule, now, rows, last, earlier, final, hs⟩ := runEntry_ledger libs db entry
  · exact h.congr hsame
  · obtain ⟨s, hbefore, hseen⟩ := h.congr (runEntry_before libs db entry)
    have hsight := hs.sighting hok ruleId hkey
    rw [hbefore, see_iterate] at hsight
    by_cases hrule : ruleId = (runEntry libs db entry).request.ruleId
    · by_cases hzero : keyCount rule.suppressionKeyField rows key = 0
      · exact ⟨s, by rw [hsight, if_pos hrule, if_pos hzero], hseen⟩
      · refine ⟨_, by rw [hsight, if_pos hrule, if_neg hzero], ?_⟩
        exact hclock now hs.now_mem
    · exact ⟨s, by rw [hsight, if_neg hrule], hseen⟩

end

/-- What has been seen since `t` before a history that reads no earlier time has been seen
since before each of its runs. -/
theorem runAll_seenSince (hkey : key ≠ "") : ∀ {entries : List HistoryEntry} {db : Db},
    LedgerOk db.suppressions →
    (∀ report ∈ runAll libs db entries, ∀ now ∈ report.readings, t ≤ now) →
    db.SeenSince ruleId key t →
    ∀ report ∈ runAll libs db entries, report.before.SeenSince ruleId key t
  | [], _, _, _, _, _, hm => absurd hm List.not_mem_nil
  | entry :: rest, db, hok, hclock, h, report, hm => by
      obtain rfl | hm := List.mem_cons.mp hm
      · exact h.congr (runEntry_before libs db entry)
      · have hstep := runEntry_seenSince hok hkey
          (hclock (runEntry libs db entry) List.mem_cons_self) h
        exact runAll_seenSince hkey (runEntry_ledgerOk libs db entry hok)
          (fun report hm => hclock report (List.mem_cons_of_mem _ hm)) hstep report hm

/-! ## No key is sent twice -/

/-- A later run reads no earlier time. -/
theorem ClockForward.later {pre : List Report} {first : Report} {later : List Report}
    (h : ClockForward (pre ++ first :: later)) (ht : t ∈ first.readings) :
    ∀ report ∈ later, ∀ now ∈ report.readings, t ≤ now := by
  rw [List.append_cons] at h
  exact h.ordered (List.mem_append_right _ (List.mem_singleton.mpr rfl)) ht

/-- An attempt keeps no row whose key the ledger has seen within the window. -/
theorem AttemptRecord.Follows.not_kept (h : r.Follows libs db rule) {now : DateTime}
    (hnow : r.now = some now) (hkey : key ≠ "") (hseen : db.SeenSince rule.id key t)
    (hwindow : now ≤ t + rule.suppressionWindowHours * DateTime.hour) {kept : List Row}
    (hkept : r.filtered = some kept) :
    ∀ row ∈ kept, rowSuppressionKey row rule.suppressionKeyField ≠ key := by
  obtain ⟨rows, -, -, ⟨hnone, -⟩ | ⟨now', hnow', hdec, rfl⟩⟩ := h.filtered kept hkept
  · rw [hnow] at hnone
    cases hnone
  · rw [hnow] at hnow'
    cases hnow'
    intro row hrow heq
    obtain ⟨d, hd, rfl⟩ := List.mem_map.mp hrow
    obtain ⟨hd, htrue⟩ := List.mem_filter.mp hd
    have hmem : (d.1, true) ∈ r.decisions := by
      rw [← beq_iff_eq.mp htrue]
      exact hd
    rw [hdec] at hmem
    have hwithholds : db.withholds rule.id
        (now - rule.suppressionWindowHours * DateTime.hour) key = true :=
      Db.withholds_iff.mpr (hseen.mono (by linarith))
    rcases filterDecisions_kept [] rows hmem with hempty | ⟨hnot, -⟩
    · exact hkey (heq.symm.trans hempty)
    · rw [heq, hwithholds] at hnot
      cases hnot

/-- A successful run of a history is the run of a rule with a ledger record to write. -/
theorem runAll_succeeded {entries : List HistoryEntry} {now : DateTime} {rows : List Row}
    {report : Report} (hm : report ∈ runAll libs db entries)
    (hs : report.success = some (rule, now, rows)) :
    ∃ last earlier final, report.Succeeded libs rule now rows last earlier final := by
  obtain ⟨db', entry, -, rfl⟩ := mem_runAll hm
  obtain ⟨hnone, -⟩ | ⟨rule', now', rows', last, earlier, final, hsucc⟩ :=
    runEntry_ledger libs db' entry
  · rw [hnone] at hs
    cases hs
  · rw [hsucc.success] at hs
    cases hs
    exact ⟨last, earlier, final, hsucc⟩

/-- **No key is sent twice within its window.**  When a successful run has had a row with the
key and read the time `t`, no later attempt of the rule that reads a time up to `t` plus the
window keeps a row with the key, or builds or hands over a message from one.  The attempt
may be of any run after it, one that fails or is interrupted too. -/
theorem no_resend (libs : Libraries) (db : Db) (entries : List HistoryEntry) (ruleId : Nat)
    (field : String) (hours : Int) (hledger : LedgerOk db.suppressions)
    (hrule : SuppressesBy ruleId field hours entries)
    (hclock : ClockForward (runAll libs db entries)) :
    ∀ pre first later, runAll libs db entries = pre ++ first :: later →
    first.request.ruleId = ruleId →
    ∀ rule t rows, first.success = some (rule, t, rows) →
    ∀ seen ∈ rows, ∀ key, rowSuppressionKey seen field = key → key ≠ "" →
    ∀ second ∈ later, second.request.ruleId = ruleId →
    ∀ attempt ∈ second.world.attempts, ∀ now, attempt.now = some now →
    now ≤ t + hours * DateTime.hour →
    ∃ rule', second.before.findRule ruleId = some rule' ∧
      (∀ kept, attempt.filtered = some kept → ∀ row ∈ kept, rowSuppressionKey row field ≠ key) ∧
      ∀ row, rowSuppressionKey row field = key →
        (∀ message, ¬ attempt.Builds libs rule' message row) ∧
        ∀ delivery, ¬ attempt.Hands libs rule' delivery row := by
  intro pre first later hsplit hfirst rule t rows hsuccess seen hseen key hkeyEq hkey second
    hsecond hsecondRule attempt hattempt now hnow hwindow
  have hmem : first ∈ runAll libs db entries := by
    rw [hsplit]
    exact List.mem_append_right _ List.mem_cons_self
  obtain ⟨last, earlier, final, hsucc⟩ := runAll_succeeded hmem hsuccess
  have hok : LedgerOk first.before.suppressions :=
    (history_invariant (P := LedgerOk) (runEntry_ledgerOk libs) entries hledger).1 first hmem
  obtain ⟨db', entry, rest, hreport, hentry, hlater, hrest⟩ := runAll_split hsplit
  -- the first run leaves the key seen at `t`
  have hfield : rule.suppressionKeyField = field := by
    have hfound := hsucc.found
    rw [hfirst, hreport] at hfound
    exact (hrule entry hentry rule hfound).2.1
  have hstart : first.after.SeenSince ruleId key t := by
    rw [← hfield] at hkeyEq
    have h := hsucc.seenSince hok hseen (hkeyEq ▸ hkey)
    rwa [hkeyEq, hfirst] at h
  -- and every later run keeps it so
  have hokAfter : LedgerOk first.after.suppressions := by
    rw [hreport] at hok ⊢
    exact runEntry_ledgerOk libs db' entry hok
  rw [hsplit] at hclock
  have hforward := hclock.later hsucc.now_mem
  rw [hlater] at hforward hsecond
  have hbefore := runAll_seenSince hkey hokAfter hforward hstart second hsecond
  -- so the filter of the attempt withholds it
  obtain ⟨db'', entry', hentry', rfl⟩ := mem_runAll hsecond
  obtain ⟨rule', hfound', hfollows⟩ := runEntry_follows libs db'' entry' attempt hattempt
  have hrequest : entry'.request.ruleId = ruleId := hsecondRule
  rw [hrequest] at hfound'
  obtain ⟨-, hfield', hhours⟩ := hrule entry' (hrest entry' hentry') rule' hfound'
  have hid : rule'.id = ruleId := findRule_id hfound'
  rw [← hid] at hbefore
  rw [← hhours] at hwindow
  have hnot : ∀ kept, attempt.filtered = some kept →
      ∀ row ∈ kept, rowSuppressionKey row field ≠ key := by
    rw [← hfield']
    exact fun kept hkept => hfollows.not_kept hnow hkey hbefore hwindow hkept
  refine ⟨rule', hfound', hnot, fun row hrow => ?_⟩
  have hbuilds : ∀ message, ¬ attempt.Builds libs rule' message row := by
    rintro message ⟨kept, messages, hkept, -, -, hmem, -⟩
    exact hnot kept hkept row hmem hrow
  exact ⟨hbuilds, fun delivery hhands => hbuilds delivery.message hhands.2⟩

end

namespace Sample

/-- A run of the rule so many hours after a day of the year 3, whose query returns one row
for each key. -/
def entry (hours : Int) (keys : List String) : HistoryEntry where
  config := { alertRules := [rule], sqlDataSources := db.sqlDataSources
              smtpConfigs := db.smtpConfigs }
  request := request
  env := env ((20000 + hours) * DateTime.hour) (keys.map row)

/-- Runs of the rule, one after another. -/
def history (runs : List (Int × List String)) : List HistoryEntry :=
  runs.map fun run => entry run.1 run.2

theorem suppressesBy (runs : List (Int × List String)) :
    SuppressesBy 1 "k" 24 (history runs) := by
  intro e he found hfound
  obtain ⟨run, -, rfl⟩ := List.mem_map.mp he
  cases hfound
  exact ⟨by decide, rfl, rfl⟩

end Sample

/-- Half a day later the key `a` is in no message. -/
theorem no_resend_halfDay :
    ∃ first second,
      runAll Sample.libs Sample.db (Sample.history [(0, ["a"]), (12, ["a", "b"])]) =
        [first, second] ∧
      second.world.attempts ≠ [] ∧
      ∀ attempt ∈ second.world.attempts, ∃ rule, second.before.findRule 1 = some rule ∧
        (∀ kept, attempt.filtered = some kept → ∀ row ∈ kept, rowSuppressionKey row "k" ≠ "a") ∧
        ∀ row, rowSuppressionKey row "k" = "a" →
          (∀ message, ¬ attempt.Builds Sample.libs rule message row) ∧
          ∀ delivery, ¬ attempt.Hands Sample.libs rule delivery row := by
  refine ⟨_, _, rfl, by decide +kernel, fun attempt hattempt => ?_⟩
  have hsuccess : (runEntry Sample.libs Sample.db (Sample.entry 0 ["a"])).success =
      some (Sample.rule, 20000 * DateTime.hour, [Sample.row "a"]) := by decide +kernel
  have hnow : attempt.now = some (20012 * DateTime.hour) := by
    revert attempt hattempt
    decide +kernel
  exact no_resend Sample.libs Sample.db (Sample.history [(0, ["a"]), (12, ["a", "b"])]) 1 "k" 24
    ⟨List.nodup_nil, List.nodup_nil⟩ (Sample.suppressesBy _) (by decide +kernel) [] _ _ rfl rfl
    _ _ _ hsuccess (Sample.row "a") (List.mem_singleton.mpr rfl) "a" (by decide +kernel)
    (by decide) _ (List.mem_singleton.mpr rfl) rfl attempt hattempt _ hnow (by decide)

end EarlyWarning
