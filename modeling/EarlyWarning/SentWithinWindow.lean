/-
# `SentWithinWindow` — whether a withheld key was sent

A key should only be withheld when it was really sent within the window
(`WithholdsOnlySent`), and so a condition that stays present should be sent again once the
window has passed (`SendsAgain`).

Both fail (`withheld_past_window`).  The ledger has one time for each key, `last_seen_at`, and
a successful run writes it for the keys it withholds too (`Report.refreshes`); so every
run moves the window on and the key is never sent again.  In histories where no run does
that, both hold (`withholds_only_sent`): then every time in the ledger is the time of a run
that sent the key (`LedgerSent`).
-/
import EarlyWarning.SuppressionWindow

namespace EarlyWarning

open Lib

section

variable {libs : Libraries} {rule : AlertRule} {db : Db} {r : AttemptRecord} {ruleId : Nat}
  {key : String} {report : Report} {past : List Report}

/-! ## Sending a key -/

/-- The run was committed with the status SUCCESS at the time `t`, and some recipient
accepted a message that it built from a row with the key. -/
def Report.Sent (libs : Libraries) (report : Report) (ruleId : Nat) (key : String)
    (t : DateTime) : Prop :=
  report.request.ruleId = ruleId ∧
  ∃ rule rows, report.success = some (rule, t, rows) ∧
  ∃ last, report.world.attempts.head? = some last ∧
  ∃ delivery row, last.Hands libs rule delivery row ∧ delivery.acceptedBySome = true ∧
    rowSuppressionKey row rule.suppressionKeyField = key

/-- One of these runs sent the key at the time `t`. -/
def SentAt (libs : Libraries) (past : List Report) (ruleId : Nat) (key : String)
    (t : DateTime) : Prop :=
  ∃ report ∈ past, report.Sent libs ruleId key t

theorem SentAt.append {more : List Report} {t : DateTime} (h : SentAt libs past ruleId key t) :
    SentAt libs (past ++ more) ruleId key t := by
  obtain ⟨report, hm, hsent⟩ := h
  exact ⟨report, List.mem_append_left _ hm, hsent⟩

/-- One of these runs sent the key within the window before `t`. -/
def SentWithin (libs : Libraries) (past : List Report) (ruleId : Nat) (key : String)
    (hours : Int) (t : DateTime) : Prop :=
  ∃ t₀, t - hours * DateTime.hour ≤ t₀ ∧ t₀ ≤ t ∧ SentAt libs past ruleId key t₀

/-- A row that an attempt withholds has the key of a row it kept before, or a key that an
earlier run sent within the window. -/
def WithholdsOnlySent (libs : Libraries) (reports : List Report) (ruleId : Nat) (field : String)
    (hours : Int) : Prop :=
  ∀ past report later, reports = past ++ report :: later → report.request.ruleId = ruleId →
  ∀ attempt ∈ report.world.attempts, ∀ t, attempt.now = some t →
  ∀ pre row post, attempt.decisions = pre ++ (row, false) :: post →
    (∃ earlier, (earlier, true) ∈ pre ∧
      rowSuppressionKey earlier field = rowSuppressionKey row field) ∨
    SentWithin libs past ruleId (rowSuppressionKey row field) hours t

/-- A successful run that finds a key sends it, unless an earlier run sent it within the
window. -/
def SendsAgain (libs : Libraries) (reports : List Report) (ruleId : Nat) (field : String)
    (hours : Int) : Prop :=
  ∀ past report later, reports = past ++ report :: later → report.request.ruleId = ruleId →
  ∀ rule t rows, report.success = some (rule, t, rows) →
  ∀ row ∈ rows, rowSuppressionKey row field ≠ "" →
    ¬ SentWithin libs past ruleId (rowSuppressionKey row field) hours t →
    report.Sent libs ruleId (rowSuppressionKey row field) t

/-- The run succeeds with a row whose key the ledger has seen within the window, but
earlier: the row is withheld, and the time of its key is moved on. -/
def Report.refreshes (report : Report) : Bool :=
  match report.success with
  | none => false
  | some (rule, now, rows) =>
      rows.any fun row =>
        let key := rowSuppressionKey row rule.suppressionKeyField
        key ≠ "" && (report.before.sighting report.request.ruleId key).any fun s =>
          now - rule.suppressionWindowHours * DateTime.hour ≤ s.lastSeenAt && s.lastSeenAt < now

/-! ## A successful attempt sends what it keeps -/

/-- Each key of the rows is withheld by the ledger or is that of a row kept. -/
theorem filterDecisions_kept_or_withheld {withholds : String → Bool} {field : String}
    {rows : List Row} {row : Row} (hrow : row ∈ rows)
    (hkey : rowSuppressionKey row field ≠ "") :
    withholds (rowSuppressionKey row field) = true ∨
    ∃ other ∈ rowsDecided true (filterDecisions withholds field [] rows),
      rowSuppressionKey other field = rowSuppressionKey row field := by
  have hdecided : row ∈ (filterDecisions withholds field [] rows).map Prod.fst := by
    rw [filterDecisions_rows]
    exact hrow
  have hkept : ∀ {other}, (other, true) ∈ filterDecisions withholds field [] rows →
      other ∈ rowsDecided true (filterDecisions withholds field [] rows) := fun h =>
    List.mem_map.mpr ⟨_, List.mem_filter.mpr ⟨h, rfl⟩, rfl⟩
  obtain ⟨⟨_, decision⟩, hd, rfl⟩ := List.mem_map.mp hdecided
  cases decision with
  | true => exact .inr ⟨_, hkept hd, rfl⟩
  | false =>
      obtain ⟨pre, post, hsplit⟩ := List.append_of_mem hd
      obtain ⟨-, hw | hs | ⟨other, hother, heq⟩⟩ := filterDecisions_withheld [] rows pre hsplit
      · exact .inl hw
      · cases hs
      · refine .inr ⟨other, hkept ?_, heq⟩
        rw [hsplit]
        exact List.mem_append_left _ hother

/-- A successful attempt sends a message from every row it kept. -/
theorem AttemptRecord.Returned.hands {attempt : ExecutionAttempt}
    (h : r.Returned libs db rule attempt) (hs : attempt.result.status = .success)
    {kept : List Row} (hkept : r.filtered = some kept) {row : Row} (hrow : row ∈ kept) :
    ∃ delivery, r.Hands libs rule delivery row ∧ delivery.acceptedBySome = true := by
  have hout := h.outcome
  generalize attempt.result = result at hout hs
  cases hout with
  | failed exc _ _ _ _ hstatus =>
      rw [hstatus] at hs
      cases hs
  | empty rows _ hfiltered =>
      rw [hkept] at hfiltered
      cases hfiltered
      cases hrow
  | sent rows messages mailResults _ hbuilt _ hhanded hanswers =>
      obtain ⟨kept', hkept', -, hmessages⟩ := h.follows.built messages hbuilt
      rw [hkept] at hkept'
      cases hkept'
      obtain ⟨message, hmem, hcarries⟩ := buildMessages_carries hmessages hrow
      obtain ⟨delivery, hd, rfl⟩ := List.mem_map.mp (hhanded ▸ hmem)
      obtain ⟨mailResult, hm, ha⟩ := answered_mem hanswers hd
      refine ⟨delivery, ⟨hd, kept, messages, hkept, hbuilt, hmem, hcarries⟩, ?_⟩
      refine ha.some ?_
      rw [← ha.throughout, statusForMailResults_success.mp hs mailResult hm]
      rfl

section

variable {now : DateTime} {rows : List Row} {last : AttemptRecord}
  {earlier : List AttemptRecord} {final : ExecutionAttempt}

/-- A successful run sends every key of its rows that the ledger does not withhold. -/
theorem Report.Succeeded.sent (h : report.Succeeded libs rule now rows last earlier final)
    {row : Row} (hrow : row ∈ rows) (hkey : rowSuppressionKey row rule.suppressionKeyField ≠ "")
    (hnot : report.before.withholds rule.id (now - rule.suppressionWindowHours * DateTime.hour)
      (rowSuppressionKey row rule.suppressionKeyField) = false) :
    report.Sent libs report.request.ruleId (rowSuppressionKey row rule.suppressionKeyField)
      now := by
  obtain hw | ⟨other, hm, heq⟩ :
      report.before.withholds rule.id (now - rule.suppressionWindowHours * DateTime.hour)
        (rowSuppressionKey row rule.suppressionKeyField) = true ∨
      ∃ other ∈ rowsDecided true (suppressionDecisions report.before rule now rows),
        rowSuppressionKey other rule.suppressionKeyField =
          rowSuppressionKey row rule.suppressionKeyField :=
    filterDecisions_kept_or_withheld hrow hkey
  · rw [hnot] at hw
    cases hw
  · rw [← h.decisions] at hm
    obtain ⟨delivery, hhands, haccepted⟩ := h.returned.hands h.status h.filtered hm
    exact ⟨rfl, rule, rows, h.success, last, by rw [h.attempts]; rfl, delivery, other, hhands,
      haccepted, heq⟩

end

/-- A run that hands nothing over sends nothing. -/
theorem Report.not_sent (h : ∀ r ∈ report.world.attempts, r.handed = []) {t : DateTime} :
    ¬ report.Sent libs ruleId key t := by
  rintro ⟨-, rule, rows, -, last, hlast, delivery, row, ⟨hd, -⟩, -⟩
  rw [h last (List.mem_of_mem_head? hlast)] at hd
  cases hd

/-! ## The times in the ledger are times of sending -/

/-- The ledger holds no other times of the keys of a rule. -/
def LedgerSent (libs : Libraries) (past : List Report) (ruleId : Nat) (db : Db) : Prop :=
  ∀ key s, key ≠ "" → db.sighting ruleId key = some s → SentAt libs past ruleId key s.lastSeenAt

theorem LedgerSent.congr {db' : Db} (h : LedgerSent libs past ruleId db)
    (hsame : db'.suppressions = db.suppressions) : LedgerSent libs past ruleId db' :=
  fun key s hkey hs => h key s hkey ((Db.sighting_congr hsame ruleId key).symm.trans hs)

theorem LedgerSent.append {more : List Report} (h : LedgerSent libs past ruleId db) :
    LedgerSent libs (past ++ more) ruleId db :=
  fun key s hkey hs => (h key s hkey hs).append

/-- A run reads the time at which it sends. -/
theorem Report.Sent.mem_readings {t : DateTime} (h : report.Sent libs ruleId key t) :
    t ∈ report.readings := by
  obtain ⟨-, rule, rows, hsuccess, -⟩ := h
  obtain ⟨-, -, -, last, earlier, final, hattempts, -, -, hnow, -⟩ :=
    Report.success_eq_some.mp hsuccess
  rw [Report.readings, World.attemptsInOrder, hattempts]
  exact List.mem_filterMap.mpr ⟨last, by simp, hnow⟩

/-- A run that refreshes no key finds none that the ledger has seen before within the
window. -/
theorem Report.not_refreshes {now : DateTime} {rows : List Row}
    (hnot : report.refreshes = false) (hs : report.success = some (rule, now, rows))
    {row : Row} (hrow : row ∈ rows) (hkey : rowSuppressionKey row rule.suppressionKeyField ≠ "")
    {s : Sighting} (hsight : report.before.sighting report.request.ruleId
      (rowSuppressionKey row rule.suppressionKeyField) = some s)
    (hle : now - rule.suppressionWindowHours * DateTime.hour ≤ s.lastSeenAt) :
    now ≤ s.lastSeenAt := by
  simp only [Report.refreshes, hs] at hnot
  have h := List.any_eq_false.mp hnot row hrow
  have hlater : now - rule.suppressionWindowHours * DateTime.hour ≤ s.lastSeenAt →
      now ≤ s.lastSeenAt := by simpa [hkey, hsight] using h
  exact hlater hle

/-- A run that refreshes no key leaves in the ledger the times of runs that sent. -/
theorem runEntry_ledgerSent {entry : HistoryEntry} (hok : LedgerOk db.suppressions)
    (hclock : ∀ earlier ∈ past, ∀ t ∈ earlier.readings,
      ∀ now ∈ (runEntry libs db entry).readings, t ≤ now)
    (hfresh : (runEntry libs db entry).request.ruleId = ruleId →
      (runEntry libs db entry).refreshes = false)
    (h : LedgerSent libs past ruleId db) :
    LedgerSent libs (past ++ [runEntry libs db entry]) ruleId (runEntry libs db entry).after := by
  obtain ⟨-, hsame⟩ | ⟨rule, now, rows, last, earlier, final, hs⟩ := runEntry_ledger libs db entry
  · exact (h.congr hsame).append
  · have hbefore : LedgerSent libs past ruleId (runEntry libs db entry).before :=
      h.congr (runEntry_before libs db entry)
    have hok : LedgerOk (runEntry libs db entry).before.suppressions := hok
    generalize runEntry libs db entry = report at *
    intro key s hkey hsight
    rw [hs.sighting hok ruleId hkey, see_iterate] at hsight
    by_cases hrule : ruleId = report.request.ruleId
    · subst hrule
      rw [if_pos rfl] at hsight
      by_cases hzero : keyCount rule.suppressionKeyField rows key = 0
      · rw [if_pos hzero] at hsight
        exact hbefore.append key s hkey hsight
      · rw [if_neg hzero] at hsight
        cases hsight
        show SentAt libs (past ++ [report]) report.request.ruleId key now
        obtain ⟨row, hrow, heq⟩ := List.countP_pos_iff.mp (Nat.pos_of_ne_zero hzero)
        obtain rfl := of_decide_eq_true heq
        have hid : rule.id = report.request.ruleId := findRule_id hs.found
        cases hw : report.before.withholds rule.id
            (now - rule.suppressionWindowHours * DateTime.hour)
            (rowSuppressionKey row rule.suppressionKeyField) with
        | false => exact ⟨report, by simp, hs.sent hrow hkey hw⟩
        | true =>
            -- seen within the window and not earlier than now, that is, now
            obtain ⟨s, hsight, hle⟩ := Db.withholds_iff.mp hw
            rw [hid] at hsight
            have hsent := hbefore _ s hkey hsight
            have hnow := Report.not_refreshes (hfresh rfl) hs.success hrow hkey hsight hle
            obtain ⟨earlier, hm, hearlier⟩ := hsent
            have hpast := hclock earlier hm _ hearlier.mem_readings now hs.now_mem
            obtain rfl : s.lastSeenAt = now := le_antisymm hpast hnow
            exact ⟨earlier, List.mem_append_left _ hm, hearlier⟩
    · rw [if_neg hrule] at hsight
      exact hbefore.append key s hkey hsight

/-- Before every run of a history without refreshes the ledger holds the times of runs that
sent. -/
theorem runAll_ledgerSent : ∀ {entries : List HistoryEntry} {db : Db} {past : List Report},
    LedgerOk db.suppressions → ClockForward (past ++ runAll libs db entries) →
    (∀ report ∈ runAll libs db entries, report.request.ruleId = ruleId →
      report.refreshes = false) →
    LedgerSent libs past ruleId db →
    ∀ pre report later, runAll libs db entries = pre ++ report :: later →
      LedgerSent libs (past ++ pre) ruleId report.before
  | [], _, _, _, _, _, _, pre, _, _, hsplit => by cases pre <;> cases hsplit
  | entry :: rest, db, past, hok, hclock, hfresh, h, pre, report, later, hsplit => by
      cases pre with
      | nil =>
          obtain ⟨rfl, -⟩ := List.cons.inj hsplit
          rw [List.append_nil]
          exact h.congr (runEntry_before libs db entry)
      | cons head pre =>
          obtain ⟨rfl, htail⟩ := List.cons.inj hsplit
          have hpast : ∀ earlier ∈ past, ∀ t ∈ earlier.readings,
              ∀ now ∈ (runEntry libs db entry).readings, t ≤ now := fun earlier hm t ht =>
            hclock.ordered hm ht _ List.mem_cons_self
          have hstep := runEntry_ledgerSent hok hpast (hfresh _ List.mem_cons_self) h
          rw [runAll, List.append_cons] at hclock
          have hrest := runAll_ledgerSent (runEntry_ledgerOk libs db entry hok) hclock
            (fun report hm => hfresh report (List.mem_cons_of_mem _ hm)) hstep pre report later
            htail
          rwa [List.append_cons]

/-- **A key is only withheld when it was sent.**  In every history that starts with an empty
ledger and in which no run of the rule refreshes a key, a row withheld has the key of a row
kept before it or one sent within the window, and a successful run sends every key it finds
that was not sent within the window. -/
theorem withholds_only_sent (libs : Libraries) (db : Db) (entries : List HistoryEntry)
    (ruleId : Nat) (field : String) (hours : Int)
    (hrule : SuppressesBy ruleId field hours entries)
    (hclock : ClockForward (runAll libs { db with suppressions := [] } entries))
    (hfresh : ∀ report ∈ runAll libs { db with suppressions := [] } entries,
      report.request.ruleId = ruleId → report.refreshes = false) :
    let reports := runAll libs { db with suppressions := [] } entries
    WithholdsOnlySent libs reports ruleId field hours ∧
      SendsAgain libs reports ruleId field hours := by
  intro reports
  have hempty : LedgerOk ({ db with suppressions := [] } : Db).suppressions :=
    ⟨List.nodup_nil, List.nodup_nil⟩
  have hledger : ∀ past report later, reports = past ++ report :: later →
      LedgerSent libs past ruleId report.before := by
    intro past report later hsplit
    have h : LedgerSent libs ([] ++ past) ruleId report.before :=
      runAll_ledgerSent hempty hclock hfresh (fun key s _ hs => by cases hs) past report later
        hsplit
    rwa [List.nil_append] at h
  -- what the filter of a run withholds was sent within the window
  have hwithheld : ∀ past report later, reports = past ++ report :: later →
      ∀ {now}, now ∈ report.readings → ∀ {key}, key ≠ "" →
      report.before.withholds ruleId (now - hours * DateTime.hour) key = true →
      SentWithin libs past ruleId key hours now := by
    intro past report later hsplit now hnow key hkey hw
    obtain ⟨s, hsight, hle⟩ := Db.withholds_iff.mp hw
    have hsent := hledger past report later hsplit key s hkey hsight
    obtain ⟨earlier, hm, hearlier⟩ := hsent
    have hclock' : ClockForward (past ++ report :: later) := hsplit ▸ hclock
    exact ⟨s.lastSeenAt, hle,
      hclock'.ordered hm hearlier.mem_readings report List.mem_cons_self now hnow,
      earlier, hm, hearlier⟩
  have hsettings : ∀ report ∈ reports, report.request.ruleId = ruleId → ∀ rule,
      report.before.findRule report.request.ruleId = some rule →
      rule.id = ruleId ∧ rule.suppressionKeyField = field ∧
        rule.suppressionWindowHours = hours := by
    intro report hm hreport rule hfound
    obtain ⟨db', entry, hentry, rfl⟩ := mem_runAll hm
    rw [hreport] at hfound
    exact ⟨findRule_id hfound, (hrule entry hentry rule hfound).2⟩
  refine ⟨?_, ?_⟩
  · intro past report later hsplit hreport attempt hattempt t hnow pre row post hdecisions
    have hm : report ∈ reports := by simp [hsplit]
    have hreading : t ∈ report.readings :=
      List.mem_filterMap.mpr ⟨attempt, List.mem_reverse.mpr hattempt, hnow⟩
    have hfollows : ∃ rule, report.before.findRule report.request.ruleId = some rule ∧
        attempt.Follows libs report.before rule := by
      obtain ⟨db', entry, -, rfl⟩ := mem_runAll hm
      exact runEntry_follows libs db' entry attempt hattempt
    obtain ⟨rule, hfound, hfollows⟩ := hfollows
    obtain ⟨hid, rfl, rfl⟩ := hsettings report hm hreport rule hfound
    obtain ⟨now, rows, hnow', -, more, hprefix⟩ := hfollows.decided (by simp [hdecisions])
    rw [hnow] at hnow'
    cases hnow'
    rw [hdecisions, List.append_assoc, List.cons_append] at hprefix
    obtain ⟨hkey, hw | hs | hearlier⟩ := filterDecisions_withheld [] rows pre hprefix.symm
    · rw [hid] at hw
      exact .inr (hwithheld past report later hsplit hreading hkey hw)
    · cases hs
    · exact .inl hearlier
  · intro past report later hsplit hreport rule t rows hsuccess row hrow hkey hnot
    have hm : report ∈ reports := by simp [hsplit]
    obtain ⟨last, earlier, final, hs⟩ := runAll_succeeded hm hsuccess
    obtain ⟨hid, rfl, rfl⟩ := hsettings report hm hreport rule hs.found
    rw [← hreport]
    refine hs.sent hrow hkey (Bool.eq_false_iff.mpr fun hw => hnot ?_)
    rw [hid] at hw
    exact hwithheld past report later hsplit hs.now_mem hkey hw

end

/-- A day and a half apart, the key `a` is sent twice; the run in between has another. -/
theorem withholds_only_sent_farApart :
    let reports := runAll Sample.libs Sample.db
      (Sample.history [(0, ["a", "a"]), (20, ["b"]), (36, ["a"])])
    WithholdsOnlySent Sample.libs reports 1 "k" 24 ∧ SendsAgain Sample.libs reports 1 "k" 24 :=
  withholds_only_sent Sample.libs Sample.db _ 1 "k" 24 (Sample.suppressesBy _)
    (by decide +kernel) (by decide +kernel)

/-! ## A key withheld past its window

The key `a` is sent at hour 0 and found again at the hours 12 and 30.  At hour 12 it is
withheld as it should be, but its time becomes hour 12, and so it is withheld at hour 30
too, although nothing was sent in the 24 hours before. -/

/-- **Neither holds of every history.** -/
theorem withheld_past_window :
    let entries := Sample.history [(0, ["a"]), (12, ["a"]), (30, ["a"])]
    let reports := runAll Sample.libs Sample.db entries
    SuppressesBy 1 "k" 24 entries ∧ ClockForward reports ∧ Sample.db.suppressions = [] ∧
      ¬ WithholdsOnlySent Sample.libs reports 1 "k" 24 ∧
      ¬ SendsAgain Sample.libs reports 1 "k" 24 := by
  intro entries reports
  obtain ⟨first, second, third, hreports, hrequest, hfirst, hsecond, hthird, hsuccess, attempt,
      hattempt, hnow, hdecisions⟩ :
      ∃ first second third, reports = [first, second, third] ∧ third.request.ruleId = 1 ∧
        first.success.map (fun s => s.2.1) = some (20000 * DateTime.hour) ∧
        (∀ r ∈ second.world.attempts, r.handed = []) ∧
        (∀ r ∈ third.world.attempts, r.handed = []) ∧
        third.success = some (Sample.rule, 20030 * DateTime.hour, [Sample.row "a"]) ∧
        ∃ attempt ∈ third.world.attempts, attempt.now = some (20030 * DateTime.hour) ∧
          attempt.decisions = [(Sample.row "a", false)] :=
    ⟨_, _, _, rfl, rfl, by decide +kernel, by decide +kernel, by decide +kernel, by decide +kernel,
      by decide +kernel⟩
  have hkey : rowSuppressionKey (Sample.row "a") "k" = "a" := by decide +kernel
  -- only the first run sent the key, and too long ago
  have hnot : ¬ SentWithin Sample.libs [first, second] 1 "a" 24 (20030 * DateTime.hour) := by
    rintro ⟨t, hle, -, report, hm, hsent⟩
    rcases List.mem_pair.mp hm with rfl | rfl
    · obtain ⟨-, rule, rows, hs, -⟩ := hsent
      rw [hs] at hfirst
      cases hfirst
      revert hle
      decide
    · exact Report.not_sent hsecond hsent
  refine ⟨Sample.suppressesBy _, by decide +kernel, rfl, fun h => ?_, fun h => ?_⟩
  · have hwithheld := h [first, second] third [] hreports hrequest attempt hattempt _ hnow []
      (Sample.row "a") [] hdecisions
    rw [hkey] at hwithheld
    rcases hwithheld with ⟨earlier, hm, -⟩ | hsent
    · cases hm
    · exact hnot hsent
  · have hagain := h [first, second] third [] hreports hrequest _ _ _ hsuccess (Sample.row "a")
      (List.mem_singleton.mpr rfl)
    rw [hkey] at hagain
    exact Report.not_sent hthird (hagain (by decide) hnot)

end EarlyWarning
