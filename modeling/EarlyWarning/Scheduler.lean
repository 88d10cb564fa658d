/-
# `Scheduler` — the rule jobs follow the rules

`RuleScheduleSynchronizer` of `app/scheduler.py` adds, reschedules and removes the jobs of the
rules.  It compares a rule with the cron expression it remembers, not with the trigger of the
job, and the calls of the scheduler may fail, each one by itself.

What a synchronization does about one rule concerns the job of this rule and what is
remembered of it only, so the loops are taken apart by `Lib.Locally`.  The memory may be ahead of
the jobs, where the scheduler has dropped one by itself, but every rule job that there is has the
trigger that is remembered (`Remembers`).
-/
import EarlyWarning.Models
import EarlyWarning.Lib.Locally
import EarlyWarning.Lib.OrderedDict
import EarlyWarning.Lib.PyInt
import EarlyWarning.Lib.Run
import Mathlib.Data.List.Pairwise

namespace EarlyWarning.Scheduler

open Lib

/-! ## The scheduler and its triggers -/

def scheduleTimezone : String := "Asia/Shanghai"

/-- `CronTrigger`; `fromCrontab` is `none` when it raises `ValueError`. -/
structure CronTrigger (τ : Type) where
  fromCrontab : (cronExpression timezone : String) → Option τ
  str : τ → String

/-- A job, but for its function, which is the same for all rules. -/
structure Job (τ : Type) where
  args : List Int
  trigger : τ
  maxInstances : Nat
  coalesce : Bool
  misfireGraceTime : Int
deriving DecidableEq

/-- The jobs by their ids, as `get_jobs` lists them. -/
abbrev Jobs (τ : Type) := OrderedDict String (Job τ)

/-- What the synchronizer reads of an `AlertRule`. -/
structure ScheduledRule where
  id : Option Int
  cronExpression : String
  enabled : Bool
  archivedAt : Option DateTime
deriving DecidableEq

/-- A call of the scheduler that may fail. -/
inductive Call
  | getJob (id : String)
  | removeJob (id : String)
  | addJob (id : String)
  | rescheduleJob (id : String)
deriving DecidableEq

def Call.jobId : Call → String
  | .getJob id | .removeJob id | .addJob id | .rescheduleJob id => id

/-! ## `app/scheduler.py` -/

/-- `_job_id` -/
def jobId (ruleId : Int) : String := "rule-" ++ toString ruleId

/-- `_rule_id_from_job_id` -/
def ruleIdFromJobId (jobId : String) : Option Int :=
  match jobId.toList with
  | 'r' :: 'u' :: 'l' :: 'e' :: '-' :: rest => PyInt.int? (String.ofList rest)
  | _ => none

structure State (τ : Type) where
  jobs : Jobs τ
  knownCronByRuleId : OrderedDict Int String

/-- A synchronization under way: the calls it has made, and how many operations failed. -/
structure SyncRun (τ : Type) extends State τ where
  calls : List Call := []
  failedOperations : Nat := 0

section

variable {τ : Type} (cron : CronTrigger τ) (misfireGraceSeconds : Int)

/-- The condition of `valid_scheduled_rules`. -/
def Valid (rule : ScheduledRule) : Prop :=
  rule.archivedAt = none ∧ rule.enabled ∧ rule.id.isSome ∧
    (cron.fromCrontab rule.cronExpression scheduleTimezone).isSome

instance (rule : ScheduledRule) : Decidable (Valid cron rule) :=
  inferInstanceAs (Decidable (_ ∧ _))

def validScheduledRules (rules : List ScheduledRule) : List ScheduledRule :=
  rules.filter fun rule => Valid cron rule

/-- `{rule.id: rule for rule in valid_scheduled_rules(rules)}` -/
def desiredRules (rules : List ScheduledRule) : OrderedDict Int ScheduledRule :=
  .collect ScheduledRule.id id (validScheduledRules cron rules)

/-- `RuleScheduleSynchronizer.__init__` -/
def State.init (jobs : Jobs τ) : State τ where
  jobs
  knownCronByRuleId := .collect (fun entry => ruleIdFromJobId entry.1)
    (fun entry => cron.str entry.2.trigger) jobs.entries

/-- One call, in a `try` block: when it fails, the operation has failed. -/
def call (fails : Call → Bool) (c : Call) (r : SyncRun τ) (rest : SyncRun τ → SyncRun τ) :
    SyncRun τ :=
  let made := { r with calls := r.calls ++ [c] }
  if fails c then { made with failedOperations := made.failedOperations + 1 } else rest made

/-- The body of the first loop of `sync`. -/
def removeRule (fails : Call → Bool) (r : SyncRun τ) (ruleId : Int) : SyncRun τ :=
  call fails (.getJob (jobId ruleId)) r fun r =>
    match r.jobs.get? (jobId ruleId) with
    | some _ =>
        call fails (.removeJob (jobId ruleId)) r fun r =>
          { r with
            jobs := r.jobs.erase (jobId ruleId)
            knownCronByRuleId := r.knownCronByRuleId.erase ruleId }
    | none => { r with knownCronByRuleId := r.knownCronByRuleId.erase ruleId }

/-- `_add_rule_job` -/
def ruleJob (ruleId : Int) (trigger : τ) : Job τ where
  args := [ruleId]
  trigger
  maxInstances := 1
  coalesce := true
  misfireGraceTime := misfireGraceSeconds

/-- The body of the second loop of `sync`. -/
def syncRule (fails : Call → Bool) (desired : OrderedDict Int ScheduledRule) (r : SyncRun τ)
    (ruleId : Int) : SyncRun τ :=
  call fails (.getJob (jobId ruleId)) r fun r =>
    match (desired.get? ruleId).bind fun rule =>
        cron.fromCrontab rule.cronExpression scheduleTimezone with
    | none => { r with failedOperations := r.failedOperations + 1 }
    | some trigger =>
        match r.jobs.get? (jobId ruleId) with
        | some job =>
            -- unchanged
            if r.knownCronByRuleId.get? ruleId = some (cron.str trigger) then r
            else call fails (.rescheduleJob (jobId ruleId)) r fun r =>
              { r with
                jobs := r.jobs.set (jobId ruleId) { job with trigger }
                knownCronByRuleId := r.knownCronByRuleId.set ruleId (cron.str trigger) }
        | none =>
            call fails (.addJob (jobId ruleId)) r fun r =>
              { r with
                jobs := r.jobs.set (jobId ruleId) (ruleJob misfireGraceSeconds ruleId trigger)
                knownCronByRuleId := r.knownCronByRuleId.set ruleId (cron.str trigger) }

/-- `set(self.known_cron_by_rule_id) - set(desired)` -/
def staleIds (s : State τ) (desired : OrderedDict Int ScheduledRule) : List Int :=
  s.knownCronByRuleId.keys.filter fun ruleId => ruleId ∉ desired.keys

/-- `sync`, which goes over the stale ids in the order `stale`. -/
def sync (rules : List ScheduledRule) (stale : List Int) (fails : Call → Bool) (s : State τ) :
    SyncRun τ :=
  let desired := desiredRules cron rules
  desired.keys.foldl (syncRule cron misfireGraceSeconds fails desired)
    (stale.foldl (removeRule fails) { toState := s })

/-- `sync` raises `RuleScheduleSyncError`. -/
def SyncRun.Raises (r : SyncRun τ) : Prop := r.failedOperations ≠ 0

inductive Label
  /-- with the rows of a table, and the stale ids in any order -/
  | sync (rules : List ScheduledRule) (stale : List Int) (fails : Call → Bool)
  /-- the scheduler drops a job -/
  | drop (id : String)

def step (s : State τ) : Label → Option (State τ)
  | .sync rules stale fails =>
      if (rules.filterMap ScheduledRule.id).Nodup ∧
          stale.Perm (staleIds s (desiredRules cron rules)) then
        some (sync cron misfireGraceSeconds rules stale fails s).toState
      else none
  | .drop id => some { s with jobs := s.jobs.erase id }

end

variable {τ : Type} {cron : CronTrigger τ} {misfireGraceSeconds : Int} {fails : Call → Bool}
  {r r' : SyncRun τ} {s t : State τ} {jobs : Jobs τ} {rules : List ScheduledRule}
  {desired : OrderedDict Int ScheduledRule} {stale : List Int} {n m : Int} {trigger : τ}

/-! ## The ids of the jobs -/

theorem jobId_injective (h : jobId m = jobId n) : m = n := by
  refine PyInt.toString_injective (String.toList_inj.mp ?_)
  have hlist := congrArg String.toList h
  simp only [jobId, String.toList_append] at hlist
  exact List.append_cancel_left hlist

theorem jobId_ne (h : m ≠ n) : jobId m ≠ jobId n := fun heq => h (jobId_injective heq)

/-- The ids of a database are read back. -/
theorem ruleIdFromJobId_jobId (h : n.natAbs < 2 ^ 63) : ruleIdFromJobId (jobId n) = some n := by
  have hlist : (jobId n).toList = 'r' :: 'u' :: 'l' :: 'e' :: '-' :: (toString n).toList := by
    rw [jobId, String.toList_append]
    rfl
  have hshort : n.natAbs < 10 ^ PyInt.maxStrDigits :=
    Nat.lt_of_lt_of_le h (Nat.le_trans (by decide : 2 ^ 63 ≤ 10 ^ 19)
      (Nat.pow_le_pow_right (by decide) (by decide)))
  simp only [ruleIdFromJobId, hlist, String.ofList_toList]
  exact PyInt.int?_toString hshort

/-! ## What one turn does -/

/-- A turn about the rule `n`: one of its calls fails and nothing changes, or it leaves this job
and this memory. -/
def Turn (fails : Call → Bool) (n : Int) (r r' : SyncRun τ)
    (post : Option (Job τ) → Option String → Prop) : Prop :=
  ∃ made, (∀ c ∈ made, c.jobId = jobId n) ∧ r'.calls = r.calls ++ made ∧
    (((∃ c ∈ made, fails c = true) ∧ r'.failedOperations = r.failedOperations + 1 ∧
        r'.toState = r.toState) ∨
      ((∀ c ∈ made, fails c = false) ∧ r'.failedOperations = r.failedOperations ∧
        ∃ job known, post job known ∧
          (∀ id, r'.jobs.get? id = if id = jobId n then job else r.jobs.get? id) ∧
          ∀ k, r'.knownCronByRuleId.get? k =
            if k = n then known else r.knownCronByRuleId.get? k))

theorem get?_self {κ ν : Type*} [DecidableEq κ] {d : OrderedDict κ ν} {k k' : κ} {v : Option ν}
    (h : d.get? k = v) : d.get? k' = if k' = k then v else d.get? k' := by
  split
  case isTrue heq => rw [heq, h]
  case isFalse => rfl

/-- One more call, and what comes after it when it does not fail. -/
theorem Turn.call {c : Call} {rest : SyncRun τ → SyncRun τ}
    {post : Option (Job τ) → Option String → Prop} (hc : c.jobId = jobId n)
    (hrest : Turn fails n { r with calls := r.calls ++ [c] }
      (rest { r with calls := r.calls ++ [c] }) post) :
    Turn fails n r (Scheduler.call fails c r rest) post := by
  simp only [Scheduler.call]
  split
  case isTrue hfails =>
    exact ⟨[c], by simpa using hc, rfl, .inl ⟨⟨c, List.mem_singleton_self c, hfails⟩, rfl, rfl⟩⟩
  case isFalse hfails =>
    obtain ⟨made, hmade, hcalls, houtcome⟩ := hrest
    refine ⟨c :: made, List.forall_mem_cons.mpr ⟨hc, hmade⟩, ?_, ?_⟩
    · rw [hcalls, List.append_assoc]
      rfl
    · rcases houtcome with ⟨⟨c', hc', hfails'⟩, hsame⟩ | ⟨hnone, hdone⟩
      · exact .inl ⟨⟨c', List.mem_cons_of_mem c hc', hfails'⟩, hsame⟩
      · exact .inr ⟨List.forall_mem_cons.mpr ⟨Bool.eq_false_iff.mpr hfails, hnone⟩, hdone⟩

/-- The end of a turn. -/
theorem Turn.done {post : Option (Job τ) → Option String → Prop} {job : Option (Job τ)}
    {known : Option String} {jobs : Jobs τ} {knownCronByRuleId : OrderedDict Int String}
    (hpost : post job known)
    (hjobs : ∀ id, jobs.get? id = if id = jobId n then job else r.jobs.get? id)
    (hknown : ∀ k, knownCronByRuleId.get? k =
      if k = n then known else r.knownCronByRuleId.get? k) :
    Turn fails n r { r with jobs, knownCronByRuleId } post :=
  ⟨[], by simp, by simp, .inr ⟨by simp, rfl, job, known, hpost, hjobs, hknown⟩⟩

theorem removeRule_turn :
    Turn fails n r (removeRule fails r n) fun job known => job = none ∧ known = none := by
  refine Turn.call rfl ?_
  cases hjob : r.jobs.get? (jobId n) with
  | none => exact .done ⟨rfl, rfl⟩ (fun id => get?_self hjob) fun k => OrderedDict.get?_erase
  | some job =>
      refine Turn.call rfl ?_
      exact .done ⟨rfl, rfl⟩ (fun id => OrderedDict.get?_erase) fun k => OrderedDict.get?_erase

/-- The rule has a job with its trigger, or it had one and the trigger is the one remembered. -/
theorem syncRule_turn (htrigger : ((desired.get? n).bind fun rule =>
      cron.fromCrontab rule.cronExpression scheduleTimezone) = some trigger) :
    Turn fails n r (syncRule cron misfireGraceSeconds fails desired r n) fun job known =>
      known = some (cron.str trigger) ∧ ∃ j, job = some j ∧
        (j.trigger = trigger ∨
          (r.jobs.get? (jobId n) = some j ∧ r.knownCronByRuleId.get? n = known)) := by
  refine Turn.call rfl ?_
  simp only [htrigger]
  cases hjob : r.jobs.get? (jobId n) with
  | none =>
      refine Turn.call rfl ?_
      exact .done ⟨rfl, _, rfl, .inl rfl⟩ (fun id => OrderedDict.get?_set)
        fun k => OrderedDict.get?_set
  | some job =>
      by_cases hknown : r.knownCronByRuleId.get? n = some (cron.str trigger)
      · simp only [hknown, if_true]
        exact .done ⟨rfl, job, rfl, .inr ⟨rfl, rfl⟩⟩ (fun id => get?_self hjob)
          fun k => get?_self hknown
      · simp only [hknown, if_false]
        refine Turn.call rfl ?_
        exact .done ⟨rfl, _, rfl, .inl rfl⟩ (fun id => OrderedDict.get?_set)
          fun k => OrderedDict.get?_set

/-! ## The invariant -/

/-- A rule job has the trigger that is remembered. -/
def Remembers (cron : CronTrigger τ) (s : State τ) : Prop :=
  ∀ n job, s.jobs.get? (jobId n) = some job →
    s.knownCronByRuleId.get? n = some (cron.str job.trigger)

/-- What holds during a synchronization that began in `s`. -/
structure RunInv (cron : CronTrigger τ) (fails : Call → Bool) (s : State τ) (r : SyncRun τ) :
    Prop where
  remembers : Remembers cron r.toState
  failed : r.failedOperations ≠ 0 ↔ ∃ c ∈ r.calls, fails c = true
  others : ∀ id, (∀ n, id ≠ jobId n) → r.jobs.get? id = s.jobs.get? id

/-- What a turn about one rule can see. -/
structure View (τ : Type) where
  job : Option (Job τ)
  known : Option String
  calls : List Call

def SyncRun.view (r : SyncRun τ) (n : Int) : View τ where
  job := r.jobs.get? (jobId n)
  known := r.knownCronByRuleId.get? n
  calls := r.calls.filter fun c => c.jobId = jobId n

/-- The same as `Turn`, of the views. -/
def ViewTurn (fails : Call → Bool) (v v' : View τ)
    (post : Option (Job τ) → Option String → Prop) : Prop :=
  ∃ made, v'.calls = v.calls ++ made ∧
    (((∃ c ∈ made, fails c = true) ∧ v'.job = v.job) ∨
      ((∀ c ∈ made, fails c = false) ∧ post v'.job v'.known))

section

variable {post post' : Option (Job τ) → Option String → Prop}

theorem Turn.mono (h : Turn fails n r r' post)
    (himp : ∀ job known, post job known → post' job known) : Turn fails n r r' post' := by
  obtain ⟨made, hmade, hcalls, hfailed | ⟨hnone, hsame, job, known, hpost, hdone⟩⟩ := h
  · exact ⟨made, hmade, hcalls, .inl hfailed⟩
  · exact ⟨made, hmade, hcalls, .inr ⟨hnone, hsame, job, known, himp job known hpost, hdone⟩⟩

theorem Turn.view (h : Turn fails n r r' post) : ViewTurn fails (r.view n) (r'.view n) post := by
  obtain ⟨made, hmade, hcalls, houtcome⟩ := h
  refine ⟨made, ?_, ?_⟩
  · have hall : made.filter (fun c => c.jobId = jobId n) = made :=
      List.filter_eq_self.mpr fun c hc => decide_eq_true (hmade c hc)
    simp only [SyncRun.view, hcalls, List.filter_append, hall]
  · rcases houtcome with ⟨hfailed, -, hsame⟩ | ⟨hnone, -, job, known, hpost, hjobs, hknown⟩
    · exact .inl ⟨hfailed, congrArg (fun s : State τ => s.jobs.get? (jobId n)) hsame⟩
    · refine .inr ⟨hnone, ?_⟩
      simpa only [SyncRun.view, hjobs, hknown, if_true] using hpost

theorem Turn.frame (h : Turn fails n r r' post) (hne : m ≠ n) : r'.view m = r.view m := by
  obtain ⟨made, hmade, hcalls, houtcome⟩ := h
  have hnot : made.filter (fun c => c.jobId = jobId m) = [] := by
    refine List.filter_eq_nil_iff.mpr fun c hc => ?_
    rw [hmade c hc, decide_eq_true_eq]
    exact (jobId_ne hne).symm
  rcases houtcome with ⟨-, -, hsame⟩ | ⟨-, -, job, known, -, hjobs, hknown⟩
  · simp only [SyncRun.view, hcalls, List.filter_append, hnot, List.append_nil, hsame]
  · simp only [SyncRun.view, hcalls, List.filter_append, hnot, List.append_nil, hjobs, hknown,
      if_neg (jobId_ne hne), if_neg hne]

theorem Turn.inv (h : Turn fails n r r' post) (hinv : RunInv cron fails s r)
    (hpost : ∀ job known, post job known → ∀ j, job = some j →
      known = some (cron.str j.trigger)) : RunInv cron fails s r' := by
  obtain ⟨made, hmade, hcalls, houtcome⟩ := h
  rcases houtcome with ⟨⟨c, hc, hfails⟩, hcount, hsame⟩ |
    ⟨hnone, hcount, job, known, hok, hjobs, hknown⟩
  · refine ⟨hsame ▸ hinv.remembers, ?_, fun id hid => ?_⟩
    · rw [hcount, hcalls]
      exact ⟨fun _ => ⟨c, List.mem_append_right _ hc, hfails⟩, fun _ => Nat.succ_ne_zero _⟩
    · rw [hsame]
      exact hinv.others id hid
  · refine ⟨fun k j hj => ?_, ?_, fun id hid => ?_⟩
    · rw [hjobs] at hj
      rw [hknown]
      by_cases hk : k = n
      · rw [hk, if_pos rfl] at hj
        rw [if_pos hk]
        exact hpost job known hok j hj
      · rw [if_neg (jobId_ne hk)] at hj
        rw [if_neg hk]
        exact hinv.remembers k j hj
    · rw [hcount, hinv.failed, hcalls]
      refine ⟨fun ⟨c, hc, hfails⟩ => ⟨c, List.mem_append_left _ hc, hfails⟩, ?_⟩
      rintro ⟨c, hc, hfails⟩
      rcases List.mem_append.mp hc with hc | hc
      · exact ⟨c, hc, hfails⟩
      · rw [hnone c hc] at hfails
        cases hfails
    · rw [hjobs, if_neg (hid n)]
      exact hinv.others id hid

end

/-- What a rule that is to be scheduled has in the end. -/
def Scheduled (cron : CronTrigger τ) (trigger : τ) (job : Option (Job τ))
    (known : Option String) : Prop :=
  known = some (cron.str trigger) ∧ ∃ j, job = some j ∧ cron.str j.trigger = cron.str trigger

theorem syncRule_scheduled (hinv : RunInv cron fails s r)
    (htrigger : ((desired.get? n).bind fun rule =>
      cron.fromCrontab rule.cronExpression scheduleTimezone) = some trigger) :
    Turn fails n r (syncRule cron misfireGraceSeconds fails desired r n)
      (Scheduled cron trigger) := by
  refine (syncRule_turn htrigger).mono ?_
  rintro job known ⟨hknown, j, hj, hfresh | ⟨hold, hsame⟩⟩
  · exact ⟨hknown, j, hj, by rw [hfresh]⟩
  · have hremembered := hinv.remembers n j hold
    rw [hsame, hknown] at hremembered
    exact ⟨hknown, j, hj, (Option.some.inj hremembered).symm⟩

/-! ## A synchronization -/

/-- The rule is scheduled, with this signature. -/
def Desired (cron : CronTrigger τ) (rules : List ScheduledRule) (n : Int) (signature : String) :
    Prop :=
  ∃ rule ∈ rules, rule.id = some n ∧ rule.enabled ∧ rule.archivedAt = none ∧
    ∃ trigger, cron.fromCrontab rule.cronExpression scheduleTimezone = some trigger ∧
      cron.str trigger = signature

/-- The rule has the job that it should have, or none. -/
def InDesiredState (cron : CronTrigger τ) (rules : List ScheduledRule) (jobs : Jobs τ)
    (n : Int) : Prop :=
  ∀ signature, (∃ job, jobs.get? (jobId n) = some job ∧ cron.str job.trigger = signature) ↔
    Desired cron rules n signature

theorem desiredRules_get? (hdistinct : (rules.filterMap ScheduledRule.id).Nodup)
    {rule : ScheduledRule} : (desiredRules cron rules).get? n = some rule ↔
      rule ∈ rules ∧ Valid cron rule ∧ rule.id = some n := by
  have hunique : ∀ a ∈ rules, ∀ b ∈ rules, a.id = some n → b.id = some n → a = b := by
    intro a ha b hb hida hidb
    by_contra hne
    have hpair := List.pairwise_filterMap.mp hdistinct
    have hsymm : Std.Symm fun a b : ScheduledRule =>
        ∀ x, a.id = some x → ∀ y, b.id = some y → x ≠ y :=
      ⟨fun a b h x hx y hy => (h y hy x hx).symm⟩
    exact hpair.forall ha hb hne n hida n hidb rfl
  constructor
  · intro h
    obtain ⟨rule', hmem, hid, heq⟩ := OrderedDict.mem_of_get?_collect h
    obtain ⟨hmem, hvalid⟩ := List.mem_filter.mp hmem
    cases heq
    exact ⟨hmem, of_decide_eq_true hvalid, hid⟩
  · rintro ⟨hmem, hvalid, hid⟩
    refine OrderedDict.get?_collect (List.mem_filter.mpr ⟨hmem, decide_eq_true hvalid⟩) hid ?_
    intro other hother hid'
    exact hunique other (List.mem_of_mem_filter hother) rule hmem hid' hid

/-- What a synchronization from `s` comes to. -/
structure Synced (cron : CronTrigger τ) (rules : List ScheduledRule) (fails : Call → Bool)
    (s : State τ) (r : SyncRun τ) : Prop where
  desired : ∀ n, (∀ c ∈ r.calls, c.jobId = jobId n → fails c = false) →
    InDesiredState cron rules r.jobs n
  kept : ∀ n, (∃ c ∈ r.calls, c.jobId = jobId n ∧ fails c = true) →
    r.jobs.get? (jobId n) = s.jobs.get? (jobId n)
  raised : r.Raises ↔ ∃ c ∈ r.calls, fails c = true
  exact : (∀ c ∈ r.calls, fails c = false) → ∀ n, InDesiredState cron rules r.jobs n
  others : ∀ id, (∀ n, id ≠ jobId n) → r.jobs.get? id = s.jobs.get? id

theorem desired_trigger (hdistinct : (rules.filterMap ScheduledRule.id).Nodup)
    (hn : n ∈ (desiredRules cron rules).keys) :
    ∃ trigger, (((desiredRules cron rules).get? n).bind fun rule =>
        cron.fromCrontab rule.cronExpression scheduleTimezone) = some trigger ∧
      ∀ signature, Desired cron rules n signature ↔ signature = cron.str trigger := by
  obtain ⟨rule, hrule⟩ := OrderedDict.mem_keys.mp hn
  obtain ⟨hmem, ⟨harchived, henabled, -, hcron⟩, hid⟩ := (desiredRules_get? hdistinct).mp hrule
  obtain ⟨trigger, htrigger⟩ := Option.isSome_iff_exists.mp hcron
  refine ⟨trigger, by rw [hrule, Option.bind_some, htrigger], fun signature => ⟨?_, ?_⟩⟩
  · rintro ⟨rule', hmem', hid', henabled', harchived', trigger', htrigger', rfl⟩
    have hrule' := (desiredRules_get? hdistinct).mpr ⟨hmem', ⟨harchived', henabled',
      by rw [hid']; rfl, by rw [htrigger']; rfl⟩, hid'⟩
    cases Option.some.inj (hrule.symm.trans hrule')
    rw [Option.some.inj (htrigger.symm.trans htrigger')]
  · rintro rfl
    exact ⟨rule, hmem, hid, henabled, harchived, trigger, htrigger, rfl⟩

theorem not_desired (hdistinct : (rules.filterMap ScheduledRule.id).Nodup)
    (hn : n ∉ (desiredRules cron rules).keys) (signature : String) :
    ¬Desired cron rules n signature := by
  rintro ⟨rule, hmem, hid, henabled, harchived, trigger, htrigger, -⟩
  refine hn (OrderedDict.mem_keys.mpr ⟨rule, (desiredRules_get? hdistinct).mpr
    ⟨hmem, ⟨harchived, henabled, by rw [hid]; rfl, by rw [htrigger]; rfl⟩, hid⟩⟩)

theorem remove_loop (hinv : RunInv cron fails s r) (hnodup : stale.Nodup) :
    RunInv cron fails s (stale.foldl (removeRule fails) r) ∧
      (∀ n ∈ stale, ViewTurn fails (r.view n) ((stale.foldl (removeRule fails) r).view n)
        fun job known => job = none ∧ known = none) ∧
      ∀ n ∉ stale, (stale.foldl (removeRule fails) r).view n = r.view n := by
  refine foldl_locally SyncRun.view
    (fun _ v v' => ViewTurn fails v v' fun job known => job = none ∧ known = none)
    (fun r n _ hr => removeRule_turn.inv hr ?_) (fun r n _ _ => removeRule_turn.view)
    (fun r n m _ _ hne => removeRule_turn.frame hne) hnodup hinv
  rintro job known ⟨rfl, rfl⟩ j hj
  cases hj

theorem sync_loop (misfireGraceSeconds : Int) (hinv : RunInv cron fails s r)
    (hdistinct : (rules.filterMap ScheduledRule.id).Nodup) :
    let desired := desiredRules cron rules
    let r' := desired.keys.foldl (syncRule cron misfireGraceSeconds fails desired) r
    RunInv cron fails s r' ∧
      (∀ n ∈ desired.keys, ∃ trigger,
        (∀ signature, Desired cron rules n signature ↔ signature = cron.str trigger) ∧
          ViewTurn fails (r.view n) (r'.view n) (Scheduled cron trigger)) ∧
      ∀ n ∉ desired.keys, r'.view n = r.view n := by
  intro desired r'
  have hscheduled : ∀ r n, n ∈ desired.keys → RunInv cron fails s r → ∃ trigger,
      (∀ signature, Desired cron rules n signature ↔ signature = cron.str trigger) ∧
        Turn fails n r (syncRule cron misfireGraceSeconds fails desired r n)
          (Scheduled cron trigger) := by
    intro r n hn hr
    obtain ⟨trigger, hbind, hsignature⟩ := desired_trigger hdistinct hn
    exact ⟨trigger, hsignature, syncRule_scheduled hr hbind⟩
  refine foldl_locally SyncRun.view
    (fun n v v' => ∃ trigger,
      (∀ signature, Desired cron rules n signature ↔ signature = cron.str trigger) ∧
        ViewTurn fails v v' (Scheduled cron trigger))
    (fun r n hn hr => ?_) (fun r n hn hr => ?_) (fun r n m hn hr hne => ?_) desired.nodup hinv
  · obtain ⟨trigger, -, hturn⟩ := hscheduled r n hn hr
    refine hturn.inv hr ?_
    rintro job known ⟨hknown, j, hj, hsame⟩ j' hj'
    obtain rfl : j = j' := Option.some.inj (hj.symm.trans hj')
    rw [hknown, hsame]
  · obtain ⟨trigger, hsignature, hturn⟩ := hscheduled r n hn hr
    exact ⟨trigger, hsignature, hturn.view⟩
  · obtain ⟨trigger, -, hturn⟩ := hscheduled r n hn hr
    exact hturn.frame hne

/-- What has become of one rule, by the calls that were made about it. -/
theorem sync_rule (misfireGraceSeconds : Int) (hremembers : Remembers cron s)
    (hdistinct : (rules.filterMap ScheduledRule.id).Nodup)
    (hstale : stale.Perm (staleIds s (desiredRules cron rules))) :
    let r := sync cron misfireGraceSeconds rules stale fails s
    RunInv cron fails s r ∧ ∀ n,
      ((∃ c ∈ (r.view n).calls, fails c = true) ∧ (r.view n).job = s.jobs.get? (jobId n)) ∨
      ((∀ c ∈ (r.view n).calls, fails c = false) ∧ InDesiredState cron rules r.jobs n) := by
  intro r
  have hmem : ∀ n, n ∈ stale ↔
      n ∈ s.knownCronByRuleId.keys ∧ n ∉ (desiredRules cron rules).keys := by
    intro n
    rw [hstale.mem_iff, staleIds, List.mem_filter, decide_eq_true_eq]
  have hnodup : stale.Nodup :=
    hstale.nodup_iff.mpr (List.Nodup.filter _ s.knownCronByRuleId.nodup)
  have hstart : RunInv cron fails s { toState := s } := ⟨hremembers, by simp, fun _ _ => rfl⟩
  obtain ⟨hinv, hremoved, hleft⟩ := remove_loop hstart hnodup
  obtain ⟨hinv', hsynced, hkept⟩ := sync_loop misfireGraceSeconds hinv hdistinct
  refine ⟨hinv', fun n => ?_⟩
  by_cases hn : n ∈ (desiredRules cron rules).keys
  · have hview := hleft n fun h => ((hmem n).mp h).2 hn
    obtain ⟨trigger, hsignature, made, hcalls, houtcome⟩ := hsynced n hn
    rw [hview] at hcalls houtcome
    obtain rfl : (r.view n).calls = made := hcalls
    rcases houtcome with ⟨hfailed, hjob⟩ | ⟨hnone, -, j, hj, hsame⟩
    · exact .inl ⟨hfailed, hjob⟩
    · refine .inr ⟨hnone, fun signature => ?_⟩
      rw [hsignature]
      constructor
      · rintro ⟨j', hj', rfl⟩
        rw [Option.some.inj (hj'.symm.trans hj), hsame]
      · rintro rfl
        exact ⟨j, hj, hsame⟩
  · have hundesired : ∀ job, job = none → (r.view n).job = job →
        InDesiredState cron rules r.jobs n := by
      rintro job rfl hjob signature
      refine ⟨?_, fun h => absurd h (not_desired hdistinct hn signature)⟩
      rintro ⟨j, hj, -⟩
      cases hj.symm.trans hjob
    by_cases hknown : n ∈ s.knownCronByRuleId.keys
    · obtain ⟨made, hcalls, houtcome⟩ := hremoved n ((hmem n).mpr ⟨hknown, hn⟩)
      rw [← hkept n hn] at hcalls houtcome
      obtain rfl : (r.view n).calls = made := hcalls
      rcases houtcome with ⟨hfailed, hjob⟩ | ⟨hnone, hjob, -⟩
      · exact .inl ⟨hfailed, hjob⟩
      · exact .inr ⟨hnone, hundesired _ rfl hjob⟩
    · have hview : r.view n = SyncRun.view { toState := s } n :=
        (hkept n hn).trans (hleft n fun h => hknown ((hmem n).mp h).1)
      have hjob : s.jobs.get? (jobId n) = none := by
        refine Option.eq_none_iff_forall_ne_some.mpr fun job hjob => hknown ?_
        exact OrderedDict.mem_keys.mpr ⟨_, hremembers n job hjob⟩
      refine .inr ⟨?_, hundesired _ rfl ?_⟩
      · rw [hview]
        intro c hc
        cases hc
      · rw [hview]
        exact hjob

/-! ## Every synchronization -/

/-- Every job is that of a rule, or of none. -/
def Listed (jobs : Jobs τ) : Prop :=
  ∀ id ∈ jobs.keys, (∃ n : Int, n.natAbs < 2 ^ 63 ∧ id = jobId n) ∨
    (ruleIdFromJobId id = none ∧ ∀ n, id ≠ jobId n)

theorem init_remembers (h : Listed jobs) : Remembers cron (State.init cron jobs) := by
  intro n job hjob
  have hentry : (jobId n, job) ∈ jobs.entries := OrderedDict.get?_eq_some.mp hjob
  have hread : ∀ entry ∈ jobs.entries, ∀ k, entry.1 = jobId k →
      ruleIdFromJobId entry.1 = some k := by
    intro entry hentry k hk
    rcases h entry.1 (List.mem_map_of_mem hentry) with ⟨k', hbound, hk'⟩ | ⟨-, hnot⟩
    · obtain rfl := jobId_injective (hk.symm.trans hk')
      rw [hk]
      exact ruleIdFromJobId_jobId hbound
    · exact absurd hk (hnot k)
  refine OrderedDict.get?_collect hentry (hread _ hentry n rfl) fun other hother hid => ?_
  rcases h other.1 (List.mem_map_of_mem hother) with ⟨k, -, hk⟩ | ⟨hnone, -⟩
  · obtain rfl : k = n := Option.some.inj ((hread other hother k hk).symm.trans hid)
    rw [List.inj_on_of_nodup_map jobs.nodup hother hentry hk]
  · rw [hnone] at hid
    cases hid

theorem step_remembers {a : Label} (h : Remembers cron s)
    (hstep : step cron misfireGraceSeconds s a = some t) : Remembers cron t := by
  cases a with
  | sync rules stale fails =>
      simp only [step] at hstep
      split at hstep
      case isTrue hlabel =>
        cases hstep
        exact (sync_rule misfireGraceSeconds h hlabel.1 hlabel.2).1.remembers
      case isFalse => cases hstep
  | drop id =>
      cases hstep
      intro n job hjob
      simp only [OrderedDict.get?_erase] at hjob
      split at hjob
      case isTrue => cases hjob
      case isFalse => exact h n job hjob

/-- **The jobs follow the rules.**  After any syncs, failed calls and dropped jobs, a rule none
of whose calls fails in a synchronization is then in its desired state, and one with a failed
call keeps the job that it had. -/
theorem scheduler_convergence (hlisted : Listed jobs) {labels : List Label}
    (hrun : fire (step cron misfireGraceSeconds) (State.init cron jobs) labels = some s)
    (hdistinct : (rules.filterMap ScheduledRule.id).Nodup)
    (hstale : stale.Perm (staleIds s (desiredRules cron rules))) :
    Synced cron rules fails s (sync cron misfireGraceSeconds rules stale fails s) := by
  have hremembers : Remembers cron s :=
    fire_invariant (fun _ _ _ hs hstep => step_remembers hs hstep) (init_remembers hlisted) hrun
  obtain ⟨hinv, hrule⟩ := sync_rule misfireGraceSeconds hremembers hdistinct hstale
  have hcalls : ∀ n c, c ∈ ((sync cron misfireGraceSeconds rules stale fails s).view n).calls ↔
      c ∈ (sync cron misfireGraceSeconds rules stale fails s).calls ∧ c.jobId = jobId n := by
    intro n c
    simp only [SyncRun.view, List.mem_filter, decide_eq_true_eq]
  have hdesired : ∀ n, (∀ c ∈ (sync cron misfireGraceSeconds rules stale fails s).calls,
      c.jobId = jobId n → fails c = false) →
      InDesiredState cron rules (sync cron misfireGraceSeconds rules stale fails s).jobs n := by
    intro n hnone
    rcases hrule n with ⟨⟨c, hc, hfails⟩, -⟩ | ⟨-, hstate⟩
    · obtain ⟨hmem, hid⟩ := (hcalls n c).mp hc
      rw [hnone c hmem hid] at hfails
      cases hfails
    · exact hstate
  refine ⟨hdesired, fun n => ?_, hinv.failed, fun hnone n => hdesired n fun c hc _ => hnone c hc,
    hinv.others⟩
  rintro ⟨c, hc, hid, hfails⟩
  rcases hrule n with ⟨-, hjob⟩ | ⟨hnone, -⟩
  · exact hjob
  · rw [hnone c ((hcalls n c).mpr ⟨hc, hid⟩)] at hfails
    cases hfails

/-! ## A flaky scheduler -/

namespace Sample

def daily : CronTrigger String where
  fromCrontab cronExpression _ := if cronExpression = "0 8 * * *" then some cronExpression else none
  str _ := "cron[month='*', day='*', day_of_week='*', hour='8', minute='0']"

def rule (id : Int) (enabled : Bool) : ScheduledRule where
  id := some id
  cronExpression := "0 8 * * *"
  enabled := enabled
  archivedAt := none

end Sample

/-- The job of rule 1 is added at the second attempt, dropped, and added again; rule 2 is
disabled. -/
theorem scheduler_convergence_flaky :
    ∃ s, fire (step Sample.daily 300) (State.init Sample.daily .empty)
        [.sync [Sample.rule 1 true, Sample.rule 2 true] [] (· = .addJob (jobId 1)),
          .sync [Sample.rule 1 true, Sample.rule 2 false] [2] fun _ => false,
          .drop (jobId 1)] = some s ∧
      Synced Sample.daily [Sample.rule 1 true, Sample.rule 2 false] (fun _ => false) s
        (sync Sample.daily 300 [Sample.rule 1 true, Sample.rule 2 false] [] (fun _ => false) s) := by
  have hrun : (fire (step Sample.daily 300) (State.init Sample.daily .empty)
      [.sync [Sample.rule 1 true, Sample.rule 2 true] [] (· = .addJob (jobId 1)),
        .sync [Sample.rule 1 true, Sample.rule 2 false] [2] fun _ => false,
        .drop (jobId 1)]).map (fun s => (s.jobs.keys, s.knownCronByRuleId.keys)) =
      some ([], [1]) := by decide +kernel
  obtain ⟨s, hs, hkeys⟩ := Option.map_eq_some_iff.mp hrun
  have hstale : staleIds s
      (desiredRules Sample.daily [Sample.rule 1 true, Sample.rule 2 false]) = [] := by
    rw [staleIds, (Prod.mk.inj hkeys).2]
    decide +kernel
  refine ⟨s, hs, scheduler_convergence (fun id hid => ?_) hs (by decide) ?_⟩
  · cases hid
  · rw [hstale]

end EarlyWarning.Scheduler
