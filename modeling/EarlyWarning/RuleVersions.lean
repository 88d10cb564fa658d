/-
# `RuleVersions` — edits of one rule at once, and what its versions say

`update_rule` of `app/routes.py` with `_create_rule_version`, any number of requests on one rule.
A request loads the rule, reads the latest version number, and later on writes in one transaction:
it inserts the version, which says what the rule was when it was loaded, and updates the columns
whose value differs from the loaded one.

Nothing tells a request that the rule has changed since it was loaded.  Two edits at once make two
versions with one number, both of the same snapshot, and a rule that mixes the two forms
(`mixed_edits`).  `concurrent_edits`: as long as no request writes over a change that it has not
seen, the rule and its versions are those of the accepted requests one after the other.
-/
import EarlyWarning.Lib.Column
import EarlyWarning.Lib.Run
import EarlyWarning.RuleExport
import Mathlib.Data.Fin.VecNotation
import Mathlib.Data.List.Nodup
import Mathlib.Logic.Function.Basic

namespace EarlyWarning.RuleVersions

open Lib EarlyWarning.RuleStore

/-! ## Versions -/

structure RuleSnapshot where
  id : Nat
  name : String
  dataSourceId : Nat
  sqlText : String
  cronExpression : String
  recipients : String
  ccRecipients : String
  subjectTemplate : String
  bodyTemplate : String
  sendMode : SendMode
  queryTimeoutSeconds : Int
  maxRows : Int
  enabled : Bool
  notes : String
  dynamicRecipientField : String
  dynamicCcField : String
  suppressDuplicates : Bool
  suppressionKeyField : String
  suppressionWindowHours : Int
  createdAt : DateTime
  updatedAt : DateTime
deriving DecidableEq

/-- `_rule_snapshot` -/
def ruleSnapshot (rule : AlertRule) : RuleSnapshot where
  id := rule.id
  name := rule.name
  dataSourceId := rule.dataSourceId
  sqlText := rule.sqlText
  cronExpression := rule.cronExpression
  recipients := rule.recipients
  ccRecipients := rule.ccRecipients
  subjectTemplate := rule.subjectTemplate
  bodyTemplate := rule.bodyTemplate
  sendMode := rule.sendMode
  queryTimeoutSeconds := rule.queryTimeoutSeconds
  maxRows := rule.maxRows
  enabled := rule.enabled
  notes := rule.notes
  dynamicRecipientField := rule.dynamicRecipientField
  dynamicCcField := rule.dynamicCcField
  suppressDuplicates := rule.suppressDuplicates
  suppressionKeyField := rule.suppressionKeyField
  suppressionWindowHours := rule.suppressionWindowHours
  createdAt := rule.createdAt
  updatedAt := rule.updatedAt

structure AlertRuleVersion where
  ruleId : Nat
  versionNumber : Nat
  changedBy : String
  /-- the object that `snapshot_json` is the text of -/
  snapshot : RuleSnapshot
  changedAt : DateTime
deriving DecidableEq

/-- `_next_rule_version_number`, of the versions of the rule. -/
def nextRuleVersionNumber (versions : List AlertRuleVersion) : Nat :=
  match (versions.map AlertRuleVersion.versionNumber).max? with
  | none => 1
  | some latest => latest + 1

/-- `_create_rule_version` -/
def createRuleVersion (versions : List AlertRuleVersion) (rule : AlertRule) (username : String)
    (now : DateTime) : AlertRuleVersion where
  ruleId := rule.id
  versionNumber := nextRuleVersionNumber versions
  changedBy := username
  snapshot := ruleSnapshot rule
  changedAt := now

/-! ## The requests -/

structure Request where
  form : RuleForm
  username : String
deriving DecidableEq

inductive Phase
  | idle
  | loaded (rule : AlertRule)
  /-- the form is valid, and the version is ready -/
  | versioned (rule : AlertRule) (validated : ValidatedForm) (version : AlertRuleVersion)
  | finished (outcome : Outcome)
deriving DecidableEq

structure State (ι : Type) where
  /-- the row of the rule -/
  rule : AlertRule
  /-- the rows of its versions -/
  versions : List AlertRuleVersion
  phase : ι → Phase

inductive Label (ι : Type)
  | load (i : ι)
  /-- the form is checked, and the latest version number is read -/
  | createVersion (i : ι) (now : DateTime)
  /-- the transaction -/
  | write (i : ι) (now : DateTime)
deriving DecidableEq

/-- The UPDATE of the flush. -/
def flushRule (loaded new current : AlertRule) : AlertRule :=
  { current with
    name := flushed loaded.name new.name current.name
    dataSourceId := flushed loaded.dataSourceId new.dataSourceId current.dataSourceId
    sqlText := flushed loaded.sqlText new.sqlText current.sqlText
    cronExpression := flushed loaded.cronExpression new.cronExpression current.cronExpression
    recipients := flushed loaded.recipients new.recipients current.recipients
    ccRecipients := flushed loaded.ccRecipients new.ccRecipients current.ccRecipients
    subjectTemplate := flushed loaded.subjectTemplate new.subjectTemplate current.subjectTemplate
    bodyTemplate := flushed loaded.bodyTemplate new.bodyTemplate current.bodyTemplate
    sendMode := flushed loaded.sendMode new.sendMode current.sendMode
    queryTimeoutSeconds :=
      flushed loaded.queryTimeoutSeconds new.queryTimeoutSeconds current.queryTimeoutSeconds
    maxRows := flushed loaded.maxRows new.maxRows current.maxRows
    enabled := flushed loaded.enabled new.enabled current.enabled
    notes := flushed loaded.notes new.notes current.notes
    dynamicRecipientField :=
      flushed loaded.dynamicRecipientField new.dynamicRecipientField current.dynamicRecipientField
    dynamicCcField := flushed loaded.dynamicCcField new.dynamicCcField current.dynamicCcField
    suppressDuplicates :=
      flushed loaded.suppressDuplicates new.suppressDuplicates current.suppressDuplicates
    suppressionKeyField :=
      flushed loaded.suppressionKeyField new.suppressionKeyField current.suppressionKeyField
    suppressionWindowHours :=
      flushed loaded.suppressionWindowHours new.suppressionWindowHours
        current.suppressionWindowHours
    updatedAt := flushed loaded.updatedAt new.updatedAt current.updatedAt }

section

variable {φ ι : Type} [DecidableEq ι] (libs : RuleLibraries φ) (sources : List SqlDataSource)
  (requests : ι → Request)

def State.finish (s : State ι) (i : ι) (outcome : Outcome) : State ι :=
  { s with phase := Function.update s.phase i (.finished outcome) }

/-- The object with the attributes that the handler sets. -/
def assign (rule : AlertRule) (form : RuleForm) (validated : ValidatedForm) (now : DateTime) :
    Except ServerError AlertRule :=
  (form.values validated (.ofString rule.notes)).store { rule with updatedAt := now }

/-- The data sources stay as they are. -/
def step (s : State ι) : Label ι → Option (State ι)
  | .load i =>
      match s.phase i with
      | .idle =>
          if s.rule.archivedAt.isSome then some (s.finish i (.notFound "规则不存在"))
          else some { s with phase := Function.update s.phase i (.loaded s.rule) }
      | _ => none
  | .createVersion i now =>
      match s.phase i with
      | .loaded rule =>
          match validateRuleForm libs sources (requests i).form with
          | .error refusal => some (s.finish i (.ofRefusal refusal))
          | .ok validated =>
              let version := createRuleVersion s.versions rule (requests i).username now
              some { s with
                phase := Function.update s.phase i (.versioned rule validated version) }
      | _ => none
  | .write i now =>
      match s.phase i with
      | .versioned rule validated version =>
          match assign rule (requests i).form validated now with
          | .error error => some (s.finish i (.raised error))
          | .ok new =>
              some { s.finish i (.redirect "/rules") with
                rule := flushRule rule new s.rule
                versions := s.versions ++ [version] }
      | _ => none

/-- No request is under way, and the rule has no version. -/
structure Initial (s : State ι) : Prop where
  versions : s.versions = []
  idle : ∀ i, s.phase i = .idle

/-! ## One after the other -/

/-- A request that is handled to its end, with the times of its version and of the rule. -/
structure Edit (ι : Type) where
  request : ι
  changedAt : DateTime
  updatedAt : DateTime
deriving DecidableEq

def Edit.labels (edit : Edit ι) : List (Label ι) :=
  [.load edit.request, .createVersion edit.request edit.changedAt,
    .write edit.request edit.updatedAt]

/-- The request is accepted. -/
def Saved (s : State ι) (i : ι) : Prop := s.phase i = .finished (.redirect "/rules")

instance (s : State ι) (i : ι) : Decidable (Saved s i) := inferInstanceAs (Decidable (_ = _))

/-- The requests are handled in this order, and accepted. -/
inductive OneByOne (start : State ι) : List (Edit ι) → State ι → Prop
  | nil : OneByOne start [] start
  | snoc {order : List (Edit ι)} {edit : Edit ι} {s t : State ι} :
      OneByOne start order s → fire (step libs sources requests) s edit.labels = some t →
      Saved t edit.request → OneByOne start (order ++ [edit]) t

/-- What the rule and its versions say after the requests of `order`. -/
structure Audited (start s : State ι) (order : List (Edit ι)) : Prop where
  once : (order.map Edit.request).Nodup
  accepted : ∀ i, i ∈ order.map Edit.request ↔ Saved s i
  serial : ∃ t, OneByOne libs sources requests start order t ∧ t.rule = s.rule ∧
    t.versions = s.versions
  numbers : s.versions.map AlertRuleVersion.versionNumber = List.range' 1 order.length
  /-- a snapshot is the rule that its edit replaced -/
  snapshots : ∀ k edit, order[k]? = some edit →
    ∃ before, OneByOne libs sources requests start (order.take k) before ∧
      s.versions[k]?.map AlertRuleVersion.snapshot = some (ruleSnapshot before.rule)
  /-- the rule is the form of the last one -/
  values : ∀ edit ∈ order.getLast?, ∃ validated,
    validateRuleForm libs sources (requests edit.request).form = .ok validated ∧
      s.rule.values = (requests edit.request).form.values validated (.ofString start.rule.notes)

/-- What a request writes, it writes over the rule and the versions that it has read. -/
def Undisturbed (s : State ι) : Label ι → Prop
  | .write i now => ∀ rule validated version new, s.phase i = .versioned rule validated version →
      assign rule (requests i).form validated now = .ok new →
      rule = s.rule ∧ version.versionNumber = nextRuleVersionNumber s.versions
  | _ => True

end

variable {φ ι : Type} [DecidableEq ι] {libs : RuleLibraries φ} {sources : List SqlDataSource}
  {requests : ι → Request} {s t start : State ι} {i : ι} {now : DateTime} {order : List (Edit ι)}
  {edit : Edit ι} {rule new loaded : AlertRule} {form : RuleForm} {validated : ValidatedForm}
  {versions : List AlertRuleVersion}

/-! ## What a step does -/

theorem load_cases (h : step libs sources requests s (.load i) = some t) :
    s.phase i = .idle ∧
      (t = s.finish i (.notFound "规则不存在") ∨
        s.rule.archivedAt = none ∧
          t = { s with phase := Function.update s.phase i (.loaded s.rule) }) := by
  simp only [step] at h
  split at h
  case h_1 hidle =>
    split at h
    case isTrue => exact ⟨hidle, .inl (Option.some.inj h).symm⟩
    case isFalse hactive =>
      exact ⟨hidle, .inr ⟨by simpa using hactive, (Option.some.inj h).symm⟩⟩
  case h_2 => cases h

theorem createVersion_cases (h : step libs sources requests s (.createVersion i now) = some t) :
    ∃ rule, s.phase i = .loaded rule ∧
      ((∃ refusal, t = s.finish i (.ofRefusal refusal)) ∨
        ∃ validated, validateRuleForm libs sources (requests i).form = .ok validated ∧
          t = { s with
            phase := Function.update s.phase i (.versioned rule validated
              (createRuleVersion s.versions rule (requests i).username now)) }) := by
  simp only [step] at h
  split at h
  case h_1 rule hloaded =>
    refine ⟨rule, hloaded, ?_⟩
    split at h
    case h_1 refusal hrefusal => exact .inl ⟨refusal, (Option.some.inj h).symm⟩
    case h_2 validated hvalidated => exact .inr ⟨validated, hvalidated, (Option.some.inj h).symm⟩
  case h_2 => cases h

theorem write_cases (h : step libs sources requests s (.write i now) = some t) :
    ∃ rule validated version, s.phase i = .versioned rule validated version ∧
      ((∃ error, t = s.finish i (.raised error)) ∨
        ∃ new, assign rule (requests i).form validated now = .ok new ∧
          t = { s.finish i (.redirect "/rules") with
            rule := flushRule rule new s.rule
            versions := s.versions ++ [version] }) := by
  simp only [step] at h
  split at h
  case h_1 rule validated version hversioned =>
    refine ⟨rule, validated, version, hversioned, ?_⟩
    split at h
    case h_1 error herror => exact .inl ⟨error, (Option.some.inj h).symm⟩
    case h_2 new hnew => exact .inr ⟨new, hnew, (Option.some.inj h).symm⟩
  case h_2 => cases h

/-! ## Columns and numbers -/

theorem assign_eq_ok (h : assign rule form validated now = .ok new) :
    new.values = form.values validated (.ofString rule.notes) ∧ new.id = rule.id ∧
      new.notes = rule.notes ∧ new.createdAt = rule.createdAt ∧
      new.archivedAt = rule.archivedAt := by
  have hstored := RuleValues.store_eq_ok.mp h
  refine ⟨hstored.values, hstored.id, ?_, hstored.createdAt, hstored.archivedAt⟩
  exact PyText.ofString_injective (congrArg RuleValues.notes hstored.values)

/-- Without a change in between, the row becomes the object. -/
theorem flushRule_loaded (h : assign loaded form validated now = .ok new) :
    flushRule loaded new loaded = new := by
  obtain ⟨-, hid, -, hcreated, harchived⟩ := assign_eq_ok h
  simp only [flushRule, flushed_loaded, ← hid, ← hcreated, ← harchived]

theorem nextRuleVersionNumber_eq {n : Nat}
    (h : versions.map AlertRuleVersion.versionNumber = List.range' 1 n) :
    nextRuleVersionNumber versions = n + 1 := by
  rw [nextRuleVersionNumber, h]
  cases n with
  | zero => rfl
  | succ n =>
      have hmax : (List.range' 1 (n + 1)).max? = some (n + 1) := by
        rw [List.max?_eq_some_iff]
        refine ⟨List.mem_range'_1.mpr ⟨by omega, by omega⟩, fun m hm => ?_⟩
        obtain ⟨-, hlt⟩ := List.mem_range'_1.mp hm
        omega
      rw [hmax]

/-! ## One request -/

/-- A request that is handled to its end and accepted. -/
theorem saved_cases (h : fire (step libs sources requests) s edit.labels = some t)
    (hsaved : Saved t edit.request) :
    s.phase edit.request = .idle ∧ s.rule.archivedAt = none ∧
      ∃ validated new,
        validateRuleForm libs sources (requests edit.request).form = .ok validated ∧
        assign s.rule (requests edit.request).form validated edit.updatedAt = .ok new ∧
        t.rule = new ∧
        t.versions = s.versions ++ [createRuleVersion s.versions s.rule
          (requests edit.request).username edit.changedAt] ∧
        ∀ j, j ≠ edit.request → t.phase j = s.phase j := by
  obtain ⟨u, hload, hrest⟩ := fire_cons.mp h
  obtain ⟨v, hcreate, hrest⟩ := fire_cons.mp hrest
  obtain ⟨w, hwrite, hend⟩ := fire_cons.mp hrest
  cases fire_nil.mp hend
  obtain ⟨rule, validated, version, hversioned, ⟨error, rfl⟩ | ⟨new, hnew, rfl⟩⟩ :=
    write_cases hwrite
  · simp [Saved, State.finish] at hsaved
  obtain ⟨rule', hloaded, ⟨refusal, rfl⟩ | ⟨validated', hvalidated, rfl⟩⟩ :=
    createVersion_cases hcreate
  · simp [State.finish] at hversioned
  obtain ⟨hidle, rfl | ⟨hactive, rfl⟩⟩ := load_cases hload
  · simp [State.finish] at hloaded
  have hrule : s.rule = rule' := by simpa using hloaded
  subst hrule
  simp only [Function.update_self, Phase.versioned.injEq] at hversioned
  obtain ⟨rfl, rfl, rfl⟩ := hversioned
  refine ⟨hidle, hactive, validated', new, hvalidated, hnew, flushRule_loaded hnew, rfl, ?_⟩
  intro j hj
  simp only [State.finish, Function.update_of_ne hj]

theorem fire_labels (edit : Edit ι) (hidle : s.phase edit.request = .idle)
    (hactive : s.rule.archivedAt = none)
    (hvalidated : validateRuleForm libs sources (requests edit.request).form = .ok validated)
    (hnew : assign s.rule (requests edit.request).form validated edit.updatedAt = .ok new) :
    ∃ t, fire (step libs sources requests) s edit.labels = some t ∧ Saved t edit.request ∧
      t.rule = new ∧
      t.versions = s.versions ++ [createRuleVersion s.versions s.rule
        (requests edit.request).username edit.changedAt] ∧
      ∀ j, j ≠ edit.request → t.phase j = s.phase j := by
  let version := createRuleVersion s.versions s.rule (requests edit.request).username edit.changedAt
  let s₁ : State ι :=
    { s with phase := Function.update s.phase edit.request (.loaded s.rule) }
  let s₂ : State ι :=
    { s₁ with
      phase := Function.update s₁.phase edit.request (.versioned s.rule validated version) }
  let s₃ : State ι :=
    { s₂.finish edit.request (.redirect "/rules") with
      rule := flushRule s.rule new s.rule
      versions := s.versions ++ [version] }
  have hload : step libs sources requests s (.load edit.request) = some s₁ := by
    simp only [step, hidle, hactive, Option.isSome_none]
    rfl
  have hcreate : step libs sources requests s₁ (.createVersion edit.request edit.changedAt) =
      some s₂ := by
    simp only [step, s₁, s₂, version, Function.update_self, hvalidated]
  have hwrite : step libs sources requests s₂ (.write edit.request edit.updatedAt) = some s₃ := by
    simp only [step, s₁, s₂, s₃, Function.update_self, hnew]
  refine ⟨s₃, ?_, ?_, flushRule_loaded hnew, rfl, fun j hj => ?_⟩
  · exact fire_cons.mpr ⟨s₁, hload, fire_cons.mpr ⟨s₂, hcreate, fire_cons.mpr ⟨s₃, hwrite,
      fire_nil.mpr rfl⟩⟩⟩
  · simp only [Saved, s₃, State.finish, Function.update_self]
  · simp only [s₁, s₂, s₃, State.finish, Function.update_of_ne hj]

/-! ## One after the other -/

theorem OneByOne.numbers (hstart : Initial start)
    (h : OneByOne libs sources requests start order s) :
    s.versions.map AlertRuleVersion.versionNumber = List.range' 1 order.length := by
  induction h with
  | nil =>
      rw [hstart.versions]
      rfl
  | snoc _ hfire hsaved ih =>
      obtain ⟨-, -, _, _, -, -, -, hversions, -⟩ := saved_cases hfire hsaved
      rw [hversions, List.map_append, ih, List.length_append, List.length_singleton,
        List.range'_concat]
      simp only [List.map_singleton, createRuleVersion, nextRuleVersionNumber_eq ih, Nat.one_mul,
        Nat.add_comm]

theorem OneByOne.length (hstart : Initial start)
    (h : OneByOne libs sources requests start order s) : s.versions.length = order.length := by
  have hnumbers := congrArg List.length (h.numbers hstart)
  rwa [List.length_map, List.length_range'] at hnumbers

theorem OneByOne.snapshots (hstart : Initial start)
    (h : OneByOne libs sources requests start order s) :
    ∀ k edit, order[k]? = some edit →
      ∃ before, OneByOne libs sources requests start (order.take k) before ∧
        s.versions[k]?.map AlertRuleVersion.snapshot = some (ruleSnapshot before.rule) := by
  induction h with
  | nil =>
      intro k edit hedit
      cases hedit
  | @snoc order last before t hbefore hfire hsaved ih =>
      intro k edit hedit
      obtain ⟨-, -, _, _, -, -, -, hversions, -⟩ := saved_cases hfire hsaved
      have hlength := hbefore.length hstart
      have hk : k < order.length + 1 := by
        simpa using (List.getElem?_eq_some_iff.mp hedit).1
      rcases Nat.lt_succ_iff_lt_or_eq.mp hk with hlt | rfl
      · rw [List.getElem?_append_left hlt] at hedit
        rw [List.take_append_of_le_length hlt.le, hversions,
          List.getElem?_append_left (hlength ▸ hlt)]
        exact ih k edit hedit
      · refine ⟨before, ?_, ?_⟩
        · rwa [List.take_left']
          rfl
        · rw [hversions, ← hlength, List.getElem?_concat_length]
          rfl

/-- The notes and the archive are not in the form. -/
theorem OneByOne.kept (h : OneByOne libs sources requests start order s) :
    s.rule.notes = start.rule.notes := by
  induction h with
  | nil => rfl
  | snoc _ hfire hsaved ih =>
      obtain ⟨-, -, _, _, -, hnew, hrule, -⟩ := saved_cases hfire hsaved
      obtain ⟨-, -, hnotes, -⟩ := assign_eq_ok hnew
      rw [hrule, hnotes, ih]

theorem OneByOne.values (h : OneByOne libs sources requests start order s) :
    ∀ edit ∈ order.getLast?, ∃ validated,
      validateRuleForm libs sources (requests edit.request).form = .ok validated ∧
        s.rule.values = (requests edit.request).form.values validated
          (.ofString start.rule.notes) := by
  cases h with
  | nil =>
      intro edit hedit
      cases hedit
  | snoc hbefore hfire hsaved =>
      intro edit hedit
      obtain ⟨-, -, validated, _, hvalidated, hnew, hrule, -⟩ := saved_cases hfire hsaved
      rw [List.getLast?_concat] at hedit
      cases hedit
      refine ⟨validated, hvalidated, ?_⟩
      rw [hrule, (assign_eq_ok hnew).1, hbefore.kept]

/-! ## All at once -/

/-- What a request has in hand comes from the rule it loaded and from its form. -/
def PhaseOk (libs : RuleLibraries φ) (sources : List SqlDataSource) (request : Request) :
    Phase → Prop
  | .loaded rule => rule.archivedAt = none
  | .versioned rule validated version =>
      rule.archivedAt = none ∧ validateRuleForm libs sources request.form = .ok validated ∧
        ∃ versions now, version = createRuleVersion versions rule request.username now
  | _ => True

theorem phaseOk_update {phase : ι → Phase} {next : Phase}
    (h : ∀ j, PhaseOk libs sources (requests j) (phase j))
    (hnext : PhaseOk libs sources (requests i) next) :
    ∀ j, PhaseOk libs sources (requests j) (Function.update phase i next j) :=
  (Function.forall_update_iff phase fun j => PhaseOk libs sources (requests j)).mpr
    ⟨hnext, fun j _ => h j⟩

/-- One step, whatever it writes over. -/
theorem phaseOk_step {label : Label ι} (h : ∀ j, PhaseOk libs sources (requests j) (s.phase j))
    (hstep : step libs sources requests s label = some t) :
    ∀ j, PhaseOk libs sources (requests j) (t.phase j) := by
  cases label with
  | load i =>
      obtain ⟨-, rfl | ⟨hactive, rfl⟩⟩ := load_cases hstep
      · exact phaseOk_update h trivial
      · exact phaseOk_update h hactive
  | createVersion i now =>
      obtain ⟨rule, hloaded, ⟨refusal, rfl⟩ | ⟨validated, hvalidated, rfl⟩⟩ :=
        createVersion_cases hstep
      · exact phaseOk_update h trivial
      · have hactive : PhaseOk libs sources (requests i) (.loaded rule) := hloaded ▸ h i
        exact phaseOk_update h ⟨hactive, hvalidated, s.versions, now, rfl⟩
  | write i now =>
      obtain ⟨rule, validated, version, -, ⟨error, rfl⟩ | ⟨new, -, rfl⟩⟩ := write_cases hstep
      · exact phaseOk_update h trivial
      · exact phaseOk_update h trivial

/-- The rule and its versions are those of the accepted requests in this order. -/
structure Follows (libs : RuleLibraries φ) (sources : List SqlDataSource) (requests : ι → Request)
    (start s : State ι) (order : List (Edit ι)) : Prop where
  once : (order.map Edit.request).Nodup
  accepted : ∀ i, i ∈ order.map Edit.request ↔ Saved s i
  serial : ∃ u, OneByOne libs sources requests start order u ∧ u.rule = s.rule ∧
    u.versions = s.versions ∧ ∀ i, i ∉ order.map Edit.request → u.phase i = .idle

theorem Follows.same (h : Follows libs sources requests start s order) (hrule : t.rule = s.rule)
    (hversions : t.versions = s.versions) (hsaved : ∀ j, Saved t j ↔ Saved s j) :
    Follows libs sources requests start t order where
  once := h.once
  accepted j := (h.accepted j).trans (hsaved j).symm
  serial := by
    obtain ⟨u, hserial, hurule, huversions, hidle⟩ := h.serial
    exact ⟨u, hserial, hurule.trans hrule.symm, huversions.trans hversions.symm, hidle⟩

theorem saved_update {phase : ι → Phase} {next : Phase} (hphase : s.phase = phase)
    (ht : t.phase = Function.update phase i next)
    (hbefore : phase i ≠ .finished (.redirect "/rules"))
    (hafter : next ≠ .finished (.redirect "/rules")) : ∀ j, Saved t j ↔ Saved s j := by
  intro j
  rw [Saved, Saved, ht, hphase]
  rcases eq_or_ne j i with rfl | hj
  · rw [Function.update_self]
    exact iff_of_false hafter hbefore
  · rw [Function.update_of_ne hj]

/-- A write over what the request has read is the next edit. -/
theorem Follows.write {version : AlertRuleVersion}
    (h : Follows libs sources requests start s order)
    (hphase : s.phase i = .versioned s.rule validated version)
    (hok : PhaseOk libs sources (requests i) (s.phase i))
    (hnumber : version.versionNumber = nextRuleVersionNumber s.versions)
    (hnew : assign s.rule (requests i).form validated now = .ok new) :
    Follows libs sources requests start
      { s.finish i (.redirect "/rules") with
        rule := flushRule s.rule new s.rule
        versions := s.versions ++ [version] }
      (order ++ [⟨i, version.changedAt, now⟩]) := by
  have hfresh : i ∉ order.map Edit.request := by
    rw [h.accepted i, Saved, hphase]
    nofun
  rw [hphase] at hok
  obtain ⟨hactive, hvalidated, versions, createdAt, hversion⟩ := hok
  obtain ⟨u, hserial, hrule, hversions, hidle⟩ := h.serial
  obtain ⟨t, hfire, hsaved, htrule, htversions, htphase⟩ :=
    fire_labels ⟨i, version.changedAt, now⟩ (hidle i hfresh) (hrule ▸ hactive) hvalidated
      (hrule ▸ hnew)
  refine ⟨?_, fun j => ?_, t, hserial.snoc hfire hsaved, ?_, ?_, fun j hj => ?_⟩
  · rw [List.map_append, List.nodup_append]
    refine ⟨h.once, List.nodup_singleton _, ?_⟩
    intro j hj k hk hsame
    rw [List.map_singleton, List.mem_singleton] at hk
    rw [hsame, hk] at hj
    exact hfresh hj
  · rw [List.map_append, List.mem_append, h.accepted j, List.map_singleton, List.mem_singleton,
      Saved, Saved, State.finish]
    rcases eq_or_ne j i with rfl | hj
    · simp
    · simp [hj]
  · rw [htrule, flushRule_loaded hnew]
  · have hsame : createRuleVersion u.versions u.rule (requests i).username version.changedAt =
        version := by
      rw [hversions, hrule]
      subst hversion
      simp only [createRuleVersion, AlertRuleVersion.mk.injEq] at hnumber ⊢
      exact ⟨trivial, hnumber.symm, trivial, trivial, trivial⟩
    rw [htversions, hsame, hversions]
  · rw [List.map_append, List.mem_append, not_or] at hj
    rw [htphase j (by simpa using hj.2)]
    exact hidle j hj.1

/-- **One step**: only an accepted write is the next edit. -/
theorem follows_step {label : Label ι} (hok : ∀ j, PhaseOk libs sources (requests j) (s.phase j))
    (h : Follows libs sources requests start s order) (hundisturbed : Undisturbed requests s label)
    (hstep : step libs sources requests s label = some t) :
    Follows libs sources requests start t order ∨
      ∃ i now validated version, label = .write i now ∧
        s.phase i = .versioned s.rule validated version ∧
        Follows libs sources requests start t (order ++ [⟨i, version.changedAt, now⟩]) := by
  cases label with
  | load i =>
      obtain ⟨hidle, rfl | ⟨-, rfl⟩⟩ := load_cases hstep
      · exact .inl (h.same rfl rfl (saved_update rfl rfl (by simp [hidle]) (by simp)))
      · exact .inl (h.same rfl rfl (saved_update rfl rfl (by simp [hidle]) (by simp)))
  | createVersion i now =>
      obtain ⟨rule, hloaded, ⟨refusal, rfl⟩ | ⟨validated, -, rfl⟩⟩ := createVersion_cases hstep
      · refine .inl (h.same rfl rfl (saved_update rfl rfl (by simp [hloaded]) ?_))
        cases refusal with
        | page error => simp [Outcome.ofRefusal]
        | raised error => simp [Outcome.ofRefusal]
      · exact .inl (h.same rfl rfl (saved_update rfl rfl (by simp [hloaded]) (by simp)))
  | write i now =>
      obtain ⟨rule, validated, version, hphase, ⟨error, rfl⟩ | ⟨new, hnew, rfl⟩⟩ :=
        write_cases hstep
      · exact .inl (h.same rfl rfl (saved_update rfl rfl (by simp [hphase]) (by simp)))
      · obtain ⟨rfl, hnumber⟩ := hundisturbed rule validated version new hphase hnew
        exact .inr ⟨i, now, validated, version, rfl, hphase,
          h.write hphase (hok i) hnumber hnew⟩

/-- At the beginning nobody is accepted. -/
theorem Initial.follows (hstart : Initial start) :
    Follows libs sources requests start start [] where
  once := List.nodup_nil
  accepted i := by
    rw [Saved, hstart.idle i]
    exact iff_of_false List.not_mem_nil nofun
  serial := ⟨start, .nil, rfl, rfl, fun i _ => hstart.idle i⟩

/-- Whatever the order of the steps, as long as no request writes over a change that it has not
read, the rule and its versions are those of the accepted requests one after the other. -/
theorem concurrent_edits {labels : List (Label ι)} (hstart : Initial start)
    (hrun : fire (step libs sources requests) start labels = some s)
    (hundisturbed : Every (step libs sources requests) (Undisturbed requests) start labels) :
    ∃ order, Audited libs sources requests start s order := by
  have hinv : (∀ j, PhaseOk libs sources (requests j) (s.phase j)) ∧
      ∃ order, Follows libs sources requests start s order := by
    refine fire_every (I := fun s => (∀ j, PhaseOk libs sources (requests j) (s.phase j)) ∧
      ∃ order, Follows libs sources requests start s order) ?_ ?_ hundisturbed hrun
    · rintro s label t ⟨hok, order, hfollows⟩ hlabel hstep
      refine ⟨phaseOk_step hok hstep, ?_⟩
      obtain hsame | ⟨_, _, _, _, -, -, hnext⟩ := follows_step hok hfollows hlabel hstep
      · exact ⟨_, hsame⟩
      · exact ⟨_, hnext⟩
    · refine ⟨fun j => ?_, [], hstart.follows⟩
      rw [hstart.idle j]
      trivial
  obtain ⟨-, order, hfollows⟩ := hinv
  obtain ⟨u, hserial, hrule, hversions, -⟩ := hfollows.serial
  exact ⟨order, hfollows.once, hfollows.accepted, ⟨u, hserial, hrule, hversions⟩,
    hversions ▸ hserial.numbers hstart, hversions ▸ hserial.snapshots hstart,
    hrule ▸ hserial.values⟩

/-- A request that is handled to its end is not disturbed. -/
theorem undisturbed_labels (s : State ι) (edit : Edit ι) :
    Every (step libs sources requests) (Undisturbed requests) s edit.labels := by
  refine ⟨trivial, fun t ht => ⟨trivial, fun u hu => ⟨?_, fun _ _ => trivial⟩⟩⟩
  intro rule validated version new hphase _
  obtain ⟨rule', hloaded, ⟨refusal, rfl⟩ | ⟨validated', -, rfl⟩⟩ := createVersion_cases hu
  · simp [State.finish] at hphase
  obtain ⟨-, rfl | ⟨-, rfl⟩⟩ := load_cases ht
  · simp [State.finish] at hloaded
  · have hrule : s.rule = rule' := by simpa using hloaded
    subst hrule
    simp only [Function.update_self, Phase.versioned.injEq] at hphase
    obtain ⟨rfl, -, rfl⟩ := hphase
    exact ⟨rfl, rfl⟩

theorem undisturbed_order (order : List (Edit ι)) : ∀ s : State ι,
    Every (step libs sources requests) (Undisturbed requests) s (order.flatMap Edit.labels) := by
  induction order with
  | nil => exact fun _ => trivial
  | cons edit order ih =>
      exact fun s => (undisturbed_labels s edit).append fun t _ => ih t

/-! ## Two edits -/

def orders : AlertRule where
  id := 1
  name := "orders"
  dataSourceId := 1
  sqlText := "select 1"
  cronExpression := "* * * * *"
  recipients := "ops@example.com"
  subjectTemplate := "subject"
  bodyTemplate := "body"
  enabled := false
  createdAt := 0
  updatedAt := 0

/-- The rule `orders` is there, and nobody edits it. -/
def ordersIdle : State (Fin 2) := ⟨orders, [], fun _ => .idle⟩

/-- The first request changes the name, the second one the cron expression. -/
def twoEdits : Fin 2 → Request :=
  ![⟨{ ruleForm with name := .ofString "sales" }, "ann"⟩,
    ⟨{ ruleForm with cronExpression := .ofString "0 * * * *" }, "bob"⟩]

theorem ordersIdle_initial : Initial ordersIdle := ⟨rfl, fun _ => rfl⟩

/-- What is left of the rule and its versions after these steps. -/
def ordersAfter (labels : List (Label (Fin 2))) : Option (AlertRule × List Nat × Phase × Phase) :=
  (fire (step plainLibraries [mainSource] twoEdits) ordersIdle labels).map fun s =>
    (s.rule, s.versions.map AlertRuleVersion.versionNumber, s.phase 0, s.phase 1)

theorem concurrent_edits_oneAfterTheOther :
    ∃ s, fire (step plainLibraries [mainSource] twoEdits) ordersIdle
        ([⟨0, 1, 2⟩, ⟨1, 3, 4⟩].flatMap Edit.labels) = some s ∧
      ∃ order, Audited plainLibraries [mainSource] twoEdits ordersIdle s order := by
  have hafter : ordersAfter ([⟨0, 1, 2⟩, ⟨1, 3, 4⟩].flatMap Edit.labels) =
      some ({ orders with cronExpression := "0 * * * *", updatedAt := 4 }, [1, 2],
        .finished (.redirect "/rules"), .finished (.redirect "/rules")) := by
    decide +kernel
  obtain ⟨s, hrun, -⟩ := Option.map_eq_some_iff.mp hafter
  exact ⟨s, hrun, concurrent_edits ordersIdle_initial hrun (undisturbed_order _ _)⟩

/-- Both load the rule before either writes: the versions have one number, and the rule has the
name of one form and the cron expression of the other. -/
theorem mixed_edits :
    ∃ s, fire (step plainLibraries [mainSource] twoEdits) ordersIdle
        [.load 0, .load 1, .createVersion 0 1, .createVersion 1 2, .write 0 3, .write 1 4] =
          some s ∧
      Saved s 0 ∧ Saved s 1 ∧ s.versions.map AlertRuleVersion.versionNumber = [1, 1] ∧
      s.rule = { orders with name := "sales", cronExpression := "0 * * * *", updatedAt := 4 } ∧
      ¬ ∃ order, Audited plainLibraries [mainSource] twoEdits ordersIdle s order := by
  have hafter : ordersAfter
      [.load 0, .load 1, .createVersion 0 1, .createVersion 1 2, .write 0 3, .write 1 4] =
      some ({ orders with name := "sales", cronExpression := "0 * * * *", updatedAt := 4 }, [1, 1],
        .finished (.redirect "/rules"), .finished (.redirect "/rules")) := by
    decide +kernel
  obtain ⟨s, hrun, hleft⟩ := Option.map_eq_some_iff.mp hafter
  simp only [Prod.mk.injEq] at hleft
  obtain ⟨hrule, hnumbers, hfirst, hsecond⟩ := hleft
  refine ⟨s, hrun, hfirst, hsecond, hnumbers, hrule, ?_⟩
  rintro ⟨order, haudited⟩
  have hrange := haudited.numbers
  have hlength : order.length = 2 := by
    have hsame := congrArg List.length hrange
    rw [hnumbers, List.length_range'] at hsame
    exact hsame.symm
  rw [hnumbers, hlength] at hrange
  cases hrange

end EarlyWarning.RuleVersions
