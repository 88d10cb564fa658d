/-
# `ScheduleFrame` — a rule whose schedule is the same is left alone

A job that is added or rescheduled gets a new next fire time.  So `RuleScheduleSynchronizer` must
not touch the job of a rule whose cron expression still means the same, whatever else it does in
the same synchronization and whatever has failed before.

`unchanged_rules`: about such a rule it makes one call, which asks for the job.  The rules may be
any list here, also one that has two rules of one id: the last one of them counts.
-/
import EarlyWarning.Scheduler

namespace EarlyWarning.Scheduler

open Lib

section

variable {τ : Type} (cron : CronTrigger τ) (misfireGraceSeconds : Int) (jobs : Jobs τ)

/-- What synchronizations with any rules and dropped jobs lead to, after the construction with
these jobs. -/
inductive Reachable : State τ → Prop
  | init : Reachable (State.init cron jobs)
  | sync {s : State τ} (rules : List ScheduledRule) (stale : List Int) (fails : Call → Bool) :
      Reachable s → stale.Perm (staleIds s (desiredRules cron rules)) →
      Reachable (sync cron misfireGraceSeconds rules stale fails s).toState
  | drop {s : State τ} (id : String) : Reachable s → Reachable { s with jobs := s.jobs.erase id }

/-- The job is the one that the rule should have. -/
def Current (rule : ScheduledRule) (job : Job τ) : Prop :=
  (cron.fromCrontab rule.cronExpression scheduleTimezone).map cron.str = some (cron.str job.trigger)

end

variable {τ : Type} {cron : CronTrigger τ} {misfireGraceSeconds : Int} {jobs : Jobs τ}
  {fails : Call → Bool} {r : SyncRun τ} {s : State τ} {rules : List ScheduledRule}
  {stale : List Int} {n : Int} {rule : ScheduledRule} {job : Job τ}

/-- The last rule of an id is one that can be scheduled. -/
theorem desiredRules_trigger (hn : n ∈ (desiredRules cron rules).keys) :
    ∃ trigger, (((desiredRules cron rules).get? n).bind fun rule =>
      cron.fromCrontab rule.cronExpression scheduleTimezone) = some trigger := by
  obtain ⟨rule, hrule⟩ := OrderedDict.mem_keys.mp hn
  obtain ⟨rule', hmem, -, rfl⟩ := OrderedDict.mem_of_get?_collect hrule
  obtain ⟨-, -, -, hcron⟩ : Valid cron rule' := of_decide_eq_true (List.mem_filter.mp hmem).2
  obtain ⟨trigger, htrigger⟩ := Option.isSome_iff_exists.mp hcron
  exact ⟨trigger, by rw [hrule]; exact htrigger⟩

/-- The stale ids are not those of the rules. -/
theorem not_mem_stale (hstale : stale.Perm (staleIds s (desiredRules cron rules)))
    (hn : n ∈ (desiredRules cron rules).keys) : n ∉ stale := by
  rw [hstale.mem_iff, staleIds, List.mem_filter, decide_eq_true_eq]
  exact fun h => h.2 hn

theorem stale_nodup (hstale : stale.Perm (staleIds s (desiredRules cron rules))) :
    stale.Nodup :=
  hstale.nodup_iff.mpr (List.Nodup.filter _ s.knownCronByRuleId.nodup)

/-- The turn of such a rule: the scheduler is asked for its job, and that is all. -/
theorem syncRule_unchanged {desired : OrderedDict Int ScheduledRule} {trigger : τ}
    (htrigger : ((desired.get? n).bind fun rule =>
      cron.fromCrontab rule.cronExpression scheduleTimezone) = some trigger)
    (hjob : (r.view n).job = some job) (hknown : (r.view n).known = some (cron.str trigger)) :
    (syncRule cron misfireGraceSeconds fails desired r n).view n =
      { r.view n with calls := (r.view n).calls ++ [.getJob (jobId n)] } := by
  have hget : r.jobs.get? (jobId n) = some job := hjob
  have hcron : r.knownCronByRuleId.get? n = some (cron.str trigger) := hknown
  have hfilter : (r.calls ++ [Call.getJob (jobId n)]).filter (fun c => c.jobId = jobId n) =
      r.calls.filter (fun c => c.jobId = jobId n) ++ [.getJob (jobId n)] := by
    rw [List.filter_append]
    simp [Call.jobId]
  simp only [syncRule, call]
  split
  case isTrue => simp only [SyncRun.view, hfilter]
  case isFalse => simp only [htrigger, hget, hcron, if_true, SyncRun.view, hfilter]

/-- The second loop, of rules that may share an id. -/
theorem sync_loop_unchanged (misfireGraceSeconds : Int) (hinv : RunInv cron fails s r)
    (rules : List ScheduledRule) :
    let desired := desiredRules cron rules
    let r' := desired.keys.foldl (syncRule cron misfireGraceSeconds fails desired) r
    RunInv cron fails s r' ∧
      ∀ n ∈ desired.keys, ∀ job trigger, (r.view n).job = some job →
        (r.view n).known = some (cron.str trigger) →
        ((desired.get? n).bind fun rule =>
          cron.fromCrontab rule.cronExpression scheduleTimezone) = some trigger →
        r'.view n = { r.view n with calls := (r.view n).calls ++ [.getJob (jobId n)] } := by
  intro desired r'
  have hkeep : ∀ r n, n ∈ desired.keys → RunInv cron fails s r →
      RunInv cron fails s (syncRule cron misfireGraceSeconds fails desired r n) := by
    intro r n hn hr
    obtain ⟨trigger, htrigger⟩ := desiredRules_trigger hn
    refine (syncRule_scheduled hr htrigger).inv hr ?_
    rintro job known ⟨hknown, j, hj, hsame⟩ j' hj'
    obtain rfl : j = j' := Option.some.inj (hj.symm.trans hj')
    rw [hknown, hsame]
  have hframe : ∀ r n m, n ∈ desired.keys → RunInv cron fails s r → m ≠ n →
      (syncRule cron misfireGraceSeconds fails desired r n).view m = r.view m := by
    intro r n m hn _ hne
    obtain ⟨trigger, htrigger⟩ := desiredRules_trigger hn
    exact (syncRule_turn htrigger).frame hne
  obtain ⟨hinv', hturns, -⟩ := foldl_locally SyncRun.view
    (fun n v v' => ∀ job trigger, v.job = some job → v.known = some (cron.str trigger) →
      ((desired.get? n).bind fun rule =>
        cron.fromCrontab rule.cronExpression scheduleTimezone) = some trigger →
      v' = { v with calls := v.calls ++ [.getJob (jobId n)] })
    hkeep (fun r n _ _ job trigger hjob hknown htrigger => syncRule_unchanged htrigger hjob hknown)
    hframe desired.nodup hinv
  exact ⟨hinv', hturns⟩

/-- One synchronization. -/
theorem sync_unchanged (misfireGraceSeconds : Int) (hremembers : Remembers cron s)
    (hstale : stale.Perm (staleIds s (desiredRules cron rules))) (fails : Call → Bool) :
    let r := sync cron misfireGraceSeconds rules stale fails s
    RunInv cron fails s r ∧
      ∀ n rule job, (desiredRules cron rules).get? n = some rule →
        s.jobs.get? (jobId n) = some job → Current cron rule job →
        (r.view n).job = some job ∧ (r.view n).calls = [.getJob (jobId n)] := by
  intro r
  have hstart : RunInv cron fails s { toState := s } := ⟨hremembers, by simp, fun _ _ => rfl⟩
  obtain ⟨hinv, -, hleft⟩ := remove_loop hstart (stale_nodup hstale)
  obtain ⟨hinv', hturns⟩ := sync_loop_unchanged misfireGraceSeconds hinv rules
  refine ⟨hinv', fun n rule job hrule hjob hcurrent => ?_⟩
  have hn : n ∈ (desiredRules cron rules).keys := OrderedDict.mem_keys.mpr ⟨rule, hrule⟩
  have hview := hleft n (not_mem_stale hstale hn)
  obtain ⟨trigger, htrigger⟩ := desiredRules_trigger hn
  have hsignature : cron.str job.trigger = cron.str trigger := by
    rw [hrule, Option.bind_some] at htrigger
    rw [Current, htrigger] at hcurrent
    exact (Option.some.inj hcurrent).symm
  have hknown : s.knownCronByRuleId.get? n = some (cron.str trigger) :=
    hsignature ▸ hremembers n job hjob
  have hturn : r.view n = _ := hturns n hn job trigger (by rw [hview]; exact hjob)
    (by rw [hview]; exact hknown) htrigger
  rw [hturn, hview]
  exact ⟨hjob, rfl⟩

theorem reachable_remembers (hlisted : Listed jobs)
    (h : Reachable cron misfireGraceSeconds jobs s) : Remembers cron s := by
  induction h with
  | init => exact init_remembers hlisted
  | sync rules stale fails _ hstale ih =>
      exact (sync_unchanged misfireGraceSeconds ih hstale fails).1.remembers
  | drop id _ ih =>
      intro n job hjob
      simp only [OrderedDict.get?_erase] at hjob
      split at hjob
      case isTrue => cases hjob
      case isFalse => exact ih n job hjob

/-- In every state that is reached, a synchronization adds, reschedules and removes nothing of a
rule that is to be scheduled and has the job it should have, and the job stays. -/
theorem unchanged_rules (hlisted : Listed jobs) (hreach : Reachable cron misfireGraceSeconds jobs s)
    (hstale : stale.Perm (staleIds s (desiredRules cron rules)))
    (hrule : (desiredRules cron rules).get? n = some rule)
    (hjob : s.jobs.get? (jobId n) = some job) (hcurrent : Current cron rule job) :
    (∀ c ∈ (sync cron misfireGraceSeconds rules stale fails s).calls, c.jobId = jobId n →
        c = .getJob (jobId n)) ∧
      (sync cron misfireGraceSeconds rules stale fails s).jobs.get? (jobId n) = some job := by
  have hremembers := reachable_remembers hlisted hreach
  obtain ⟨hkept, hcalls⟩ :=
    (sync_unchanged misfireGraceSeconds hremembers hstale fails).2 n rule job hrule hjob hcurrent
  refine ⟨fun c hc hid => ?_, hkept⟩
  have hmem : c ∈ ((sync cron misfireGraceSeconds rules stale fails s).view n).calls :=
    List.mem_filter.mpr ⟨hc, decide_eq_true hid⟩
  rw [hcalls] at hmem
  exact List.mem_singleton.mp hmem

/-- Rule 1 has its job, and the job of rule 2 cannot be added. -/
theorem unchanged_rules_flaky :
    ∃ s, Reachable Sample.daily 300 .empty s ∧ ∃ job, s.jobs.get? (jobId 1) = some job ∧
      (∀ c ∈ (sync Sample.daily 300 [Sample.rule 1 true, Sample.rule 2 true] []
          (· = .addJob (jobId 2)) s).calls, c.jobId = jobId 1 → c = .getJob (jobId 1)) ∧
      (sync Sample.daily 300 [Sample.rule 1 true, Sample.rule 2 true] []
        (· = .addJob (jobId 2)) s).jobs.get? (jobId 1) = some job := by
  have hfirst : Reachable Sample.daily 300 .empty
      (sync Sample.daily 300 [Sample.rule 1 true] [] (fun _ => false)
        (State.init Sample.daily .empty)).toState :=
    .sync [Sample.rule 1 true] [] (fun _ => false) .init (.refl _)
  have hjob : (sync Sample.daily 300 [Sample.rule 1 true] [] (fun _ => false)
      (State.init Sample.daily .empty)).jobs.get? (jobId 1) =
        some (ruleJob 300 1 "0 8 * * *") := by
    decide +kernel
  have hstale : staleIds (sync Sample.daily 300 [Sample.rule 1 true] [] (fun _ => false)
      (State.init Sample.daily .empty)).toState
      (desiredRules Sample.daily [Sample.rule 1 true, Sample.rule 2 true]) = [] := by
    decide +kernel
  have hrule : (desiredRules Sample.daily [Sample.rule 1 true, Sample.rule 2 true]).get? 1 =
      some (Sample.rule 1 true) := by
    decide +kernel
  refine ⟨_, hfirst, _, hjob, unchanged_rules (fun id hid => ?_) hfirst ?_ hrule hjob rfl⟩
  · cases hid
  · rw [hstale]

end EarlyWarning.Scheduler
