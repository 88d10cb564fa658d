/-
# `SmtpSettings` — the enabled mail server

`create_smtp_settings`, `update_smtp_settings` and `delete_smtp_settings` of `app/routes.py`, any
number of them at once.  A request loads its row, and later on writes in one transaction: it
disables the other enabled rows as they are then, and writes the attributes of its own row that
differ from the ones it loaded.

So at most one row is enabled, whatever happens, and the unique index is never in the way.  But
a row that was loaded enabled and is disabled by another request in the meantime stays disabled
when it is saved as enabled (`both_saved`): its flag is not written, because it did not change.
-/
import EarlyWarning.FormValues
import EarlyWarning.Lib.Column
import EarlyWarning.Lib.Run
import EarlyWarning.Session
import Mathlib.Data.Fin.VecNotation
import Mathlib.Data.List.Count
import Mathlib.Data.List.Nodup
import Mathlib.Logic.Function.Basic

namespace EarlyWarning.SmtpSettings

open Lib

/-! ## The requests -/

structure SmtpForm where
  host : String
  port : String
  username : String
  password : String
  /-- what the cipher makes of the password -/
  encryptedPassword : String
  sender : String
  useTls : Option String
  useSsl : Option String
  enabled : Option String
  timeoutSeconds : String
deriving DecidableEq

inductive Request
  | create (form : SmtpForm)
  | update (configId : Nat) (form : SmtpForm)
  | delete (configId : Nat)
deriving DecidableEq

inductive Outcome
  | saved (configId : Nat)
  | deleted
  /-- the page with an error -/
  | rejected (error : String)
  | notFound
  | raised (error : ServerError)
deriving DecidableEq

/-- The port and the timeout of a form, or its error. -/
def smtpValues (form : SmtpForm) : Except String (Int × Int) :=
  match parseSmtpValues (.ofString form.port) (.ofString form.timeoutSeconds) with
  | .error error => .error error
  | .ok values =>
      if isChecked form.useTls ∧ isChecked form.useSsl then .error "TLS 和 SSL 不能同时启用"
      else .ok values

def findConfig (configs : List SmtpConfig) (id : Nat) : Option SmtpConfig :=
  configs.find? fun config => config.id = id

/-- `_disable_other_smtp_configs` -/
def disableOtherSmtpConfigs (configs : List SmtpConfig) (keepId : Option Nat) :
    List SmtpConfig :=
  configs.map fun config =>
    if config.enabled ∧ some config.id ≠ keepId then { config with enabled := false } else config

/-- `uq_smtpconfig_single_enabled` -/
def SingleEnabled (configs : List SmtpConfig) : Prop := configs.countP SmtpConfig.enabled ≤ 1

instance (configs : List SmtpConfig) : Decidable (SingleEnabled configs) :=
  inferInstanceAs (Decidable (_ ≤ _))

/-- The new object of `create_smtp_settings`. -/
def newConfig (form : SmtpForm) (values : Int × Int) (id : Nat) (now : DateTime) : SmtpConfig where
  id
  host := form.host
  port := values.1
  username := form.username
  encryptedPassword := form.encryptedPassword
  sender := form.sender
  useTls := isChecked form.useTls
  useSsl := isChecked form.useSsl
  timeoutSeconds := values.2
  enabled := isChecked form.enabled
  updatedAt := now

/-- The transaction of `create_smtp_settings`. -/
def createConfig (configs : List SmtpConfig) (form : SmtpForm) (values : Int × Int)
    (now : DateTime) : Except ServerError (Nat × List SmtpConfig) :=
  let id := nextId (configs.map SmtpConfig.id)
  let others := if isChecked form.enabled then disableOtherSmtpConfigs configs none else configs
  let written := others ++ [newConfig form values id now]
  if SingleEnabled written then .ok (id, written) else .error .integrityError

/-- The attributes that `update_smtp_settings` sets. -/
def assign (config : SmtpConfig) (form : SmtpForm) (values : Int × Int) (now : DateTime) :
    SmtpConfig where
  id := config.id
  host := form.host
  port := values.1
  username := form.username
  encryptedPassword :=
    if form.password = "" then config.encryptedPassword else form.encryptedPassword
  sender := form.sender
  useTls := isChecked form.useTls
  useSsl := isChecked form.useSsl
  timeoutSeconds := values.2
  enabled := isChecked form.enabled
  updatedAt := now

/-- The UPDATE of the flush. -/
def flushConfig (loaded new current : SmtpConfig) : SmtpConfig where
  id := current.id
  host := flushed loaded.host new.host current.host
  port := flushed loaded.port new.port current.port
  username := flushed loaded.username new.username current.username
  encryptedPassword :=
    flushed loaded.encryptedPassword new.encryptedPassword current.encryptedPassword
  sender := flushed loaded.sender new.sender current.sender
  useTls := flushed loaded.useTls new.useTls current.useTls
  useSsl := flushed loaded.useSsl new.useSsl current.useSsl
  timeoutSeconds := flushed loaded.timeoutSeconds new.timeoutSeconds current.timeoutSeconds
  enabled := flushed loaded.enabled new.enabled current.enabled
  updatedAt := flushed loaded.updatedAt new.updatedAt current.updatedAt

/-- The transaction of `update_smtp_settings`. -/
def updateConfig (configs : List SmtpConfig) (loaded : SmtpConfig) (form : SmtpForm)
    (values : Int × Int) (now : DateTime) : Except ServerError (List SmtpConfig) :=
  let others :=
    if isChecked form.enabled then disableOtherSmtpConfigs configs (some loaded.id) else configs
  let new := assign loaded form values now
  -- no attribute has changed, and there is no UPDATE
  if new = loaded then .ok others
  else if loaded.id ∉ configs.map SmtpConfig.id then .error .staleDataError
  else
    let written := others.map fun config =>
      if config.id = loaded.id then flushConfig loaded new config else config
    if SingleEnabled written then .ok written else .error .integrityError

inductive Phase
  | idle
  | loaded (config : SmtpConfig)
  | finished (outcome : Outcome)
deriving DecidableEq

structure State (ι : Type) where
  configs : List SmtpConfig
  phase : ι → Phase

inductive Label (ι : Type)
  | load (i : ι)
  /-- the form is checked, and the transaction commits or fails -/
  | write (i : ι) (now : DateTime)

section

variable {ι : Type} [DecidableEq ι] (requests : ι → Request)

def State.finish (s : State ι) (i : ι) (outcome : Outcome) : State ι :=
  { s with phase := Function.update s.phase i (.finished outcome) }

def load (s : State ι) (i : ι) (configId : Nat) : State ι :=
  match findConfig s.configs configId with
  | none => s.finish i .notFound
  | some config => { s with phase := Function.update s.phase i (.loaded config) }

def step (s : State ι) : Label ι → Option (State ι)
  | .load i =>
      match s.phase i, requests i with
      | .idle, .update configId _ => some (load s i configId)
      | .idle, .delete configId => some (load s i configId)
      | _, _ => none
  | .write i now =>
      match s.phase i, requests i with
      | .idle, .create form =>
          match smtpValues form with
          | .error error => some (s.finish i (.rejected error))
          | .ok values =>
              match createConfig s.configs form values now with
              | .error error => some (s.finish i (.raised error))
              | .ok (id, configs) => some { s.finish i (.saved id) with configs }
      | .loaded config, .update _ form =>
          match smtpValues form with
          | .error error => some (s.finish i (.rejected error))
          | .ok values =>
              match updateConfig s.configs config form values now with
              | .error error => some (s.finish i (.raised error))
              | .ok configs => some { s.finish i (.saved config.id) with configs }
      | .loaded config, .delete _ =>
          some { s.finish i .deleted with
            configs := s.configs.filter fun row => row.id ≠ config.id }
      | _, _ => none

end

/-! ## What a save is for -/

/-- `id` is the one enabled row. -/
def EnabledIs (configs : List SmtpConfig) (id : Nat) : Prop :=
  (configs.filter SmtpConfig.enabled).map SmtpConfig.id = [id]

def NotEnabled (configs : List SmtpConfig) (id : Nat) : Prop :=
  ∀ config ∈ configs, config.id = id → config.enabled = false

def Request.form : Request → Option SmtpForm
  | .create form | .update _ form => some form
  | .delete _ => none

/-- A row that was saved as enabled is the one enabled row, and a row that was not is not. -/
def SavedRight {ι : Type} [DecidableEq ι] (requests : ι → Request) (s : State ι) (a : Label ι) :
    Prop :=
  ∀ t i now id form, step requests s a = some t → a = .write i now →
    t.phase i = .finished (.saved id) → (requests i).form = some form →
    if isChecked form.enabled then EnabledIs t.configs id else NotEnabled t.configs id

/-- The row still has the flag that the request loaded, or the form has the other one.  (Where
the row is gone, a form with the flag changes something, if only the time.) -/
def FlagKept (configs : List SmtpConfig) (loaded : SmtpConfig) (form : SmtpForm)
    (values : Int × Int) (now : DateTime) : Prop :=
  match findConfig configs loaded.id with
  | some row => isChecked form.enabled = loaded.enabled → row.enabled = loaded.enabled
  | none => assign loaded form values now = loaded → isChecked form.enabled = false

/-- An UPDATE finds the flag that its request loaded. -/
def Undisturbed {ι : Type} (requests : ι → Request) (s : State ι) : Label ι → Prop
  | .load _ => True
  | .write i now => ∀ loaded configId form values, s.phase i = .loaded loaded →
      requests i = .update configId form → smtpValues form = .ok values →
      FlagKept s.configs loaded form values now

variable {ι : Type} [DecidableEq ι] {requests : ι → Request} {s t : State ι} {i : ι}
  {configs : List SmtpConfig} {config loaded new row : SmtpConfig} {form : SmtpForm}
  {values : Int × Int} {now : DateTime} {id : Nat} {keepId : Option Nat}

/-! ## The rows -/

theorem mem_disableOther (h : config ∈ disableOtherSmtpConfigs configs keepId)
    (henabled : config.enabled = true) : config ∈ configs ∧ some config.id = keepId := by
  obtain ⟨old, hold, rfl⟩ := List.mem_map.mp h
  split at henabled
  case isTrue => cases henabled
  case isFalse hkept =>
    rw [if_neg hkept]
    exact ⟨hold, by_contra fun hne => hkept ⟨henabled, hne⟩⟩

theorem disableOther_map_id :
    (disableOtherSmtpConfigs configs keepId).map SmtpConfig.id = configs.map SmtpConfig.id := by
  rw [disableOtherSmtpConfigs, List.map_map]
  refine List.map_congr_left fun config _ => ?_
  simp only [Function.comp_apply]
  split <;> rfl

/-- The row that is kept. -/
theorem mem_disableOther_self (h : config ∈ configs) (hid : some config.id = keepId) :
    config ∈ disableOtherSmtpConfigs configs keepId := by
  refine List.mem_map.mpr ⟨config, h, ?_⟩
  rw [if_neg fun hother => hother.2 hid]

theorem disableOther_countP_le : (disableOtherSmtpConfigs configs keepId).countP SmtpConfig.enabled ≤
    configs.countP SmtpConfig.enabled := by
  rw [disableOtherSmtpConfigs, List.countP_map]
  refine List.countP_mono_left fun config _ h => ?_
  simp only [Function.comp_apply] at h
  split at h
  case isTrue => cases h
  case isFalse => exact h

/-- Rows that are enabled at one id only. -/
theorem singleEnabled_of (hkey : (configs.map SmtpConfig.id).Nodup)
    (h : ∀ config ∈ configs, config.enabled = true → config.id = id) : SingleEnabled configs := by
  have hle : configs.countP SmtpConfig.enabled ≤ configs.countP fun config => config.id == id := by
    refine List.countP_mono_left fun config hconfig henabled => ?_
    simpa using h config hconfig henabled
  have hone : configs.countP (fun config => config.id == id) ≤ 1 := by
    have hcount := List.nodup_iff_count_le_one.mp hkey id
    rwa [List.count, List.countP_map] at hcount
  exact Nat.le_trans hle hone

theorem enabledIs_iff (hkey : (configs.map SmtpConfig.id).Nodup)
    (h : ∀ config ∈ configs, config.enabled = true → config.id = id) :
    EnabledIs configs id ↔ ∃ config ∈ configs, config.id = id ∧ config.enabled = true := by
  constructor
  · intro henabled
    have hmem : id ∈ (configs.filter SmtpConfig.enabled).map SmtpConfig.id := by
      rw [henabled]
      exact List.mem_singleton_self id
    obtain ⟨config, hconfig, hid⟩ := List.mem_map.mp hmem
    obtain ⟨hold, hflag⟩ := List.mem_filter.mp hconfig
    exact ⟨config, hold, hid, hflag⟩
  · rintro ⟨config, hconfig, hid, hflag⟩
    have hnodup : ((configs.filter SmtpConfig.enabled).map SmtpConfig.id).Nodup :=
      hkey.sublist (List.filter_sublist.map _)
    have hmem : id ∈ (configs.filter SmtpConfig.enabled).map SmtpConfig.id :=
      List.mem_map.mpr ⟨config, List.mem_filter.mpr ⟨hconfig, hflag⟩, hid⟩
    have hall : ∀ x ∈ (configs.filter SmtpConfig.enabled).map SmtpConfig.id, x = id := by
      intro x hx
      obtain ⟨other, hother, rfl⟩ := List.mem_map.mp hx
      obtain ⟨hold, hflag'⟩ := List.mem_filter.mp hother
      exact h other hold hflag'
    rw [EnabledIs]
    cases hlist : (configs.filter SmtpConfig.enabled).map SmtpConfig.id with
    | nil =>
        rw [hlist] at hmem
        cases hmem
    | cons first rest =>
        rw [hlist] at hnodup hall
        obtain rfl := hall first List.mem_cons_self
        cases rest with
        | nil => rfl
        | cons second rest =>
            obtain rfl := hall second (by simp)
            exact absurd List.mem_cons_self (List.nodup_cons.mp hnodup).1

theorem findConfig_id (h : findConfig configs id = some row) : row ∈ configs ∧ row.id = id :=
  ⟨List.mem_of_find?_eq_some h, by simpa using List.find?_some h⟩

theorem findConfig_eq_none : findConfig configs id = none ↔ id ∉ configs.map SmtpConfig.id := by
  simp only [findConfig, List.find?_eq_none, List.mem_map, not_exists, not_and, decide_eq_true_eq]

/-- A row is found by its id. -/
theorem findConfig_eq_some (hkey : (configs.map SmtpConfig.id).Nodup) (h : row ∈ configs)
    (hid : row.id = id) : findConfig configs id = some row := by
  cases hfind : findConfig configs id with
  | none => exact absurd (List.mem_map.mpr ⟨row, h, hid⟩) (findConfig_eq_none.mp hfind)
  | some found =>
      obtain ⟨hmem, hfound⟩ := findConfig_id hfind
      rw [List.inj_on_of_nodup_map hkey hmem h (hfound.trans hid.symm)]

/-! ## The transactions -/

/-- The table of `smtpconfig`, with its keys. -/
structure TableOk (configs : List SmtpConfig) : Prop where
  primaryKey : (configs.map SmtpConfig.id).Nodup
  single : SingleEnabled configs

theorem disableOther_tableOk (h : TableOk configs) :
    TableOk (disableOtherSmtpConfigs configs keepId) := by
  refine ⟨?_, Nat.le_trans disableOther_countP_le h.single⟩
  rw [disableOther_map_id]
  exact h.primaryKey

/-- The index is never in the way of a new row. -/
theorem createConfig_spec (form : SmtpForm) (values : Int × Int) (now : DateTime)
    (h : TableOk configs) :
    ∃ id written, createConfig configs form values now = .ok (id, written) ∧ TableOk written ∧
      if isChecked form.enabled then EnabledIs written id else NotEnabled written id := by
  have hnew := nextId_not_mem (configs.map SmtpConfig.id)
  have hkeys : ∀ others : List SmtpConfig,
      others.map SmtpConfig.id = configs.map SmtpConfig.id →
      ((others ++ [newConfig form values (nextId (configs.map SmtpConfig.id)) now]).map
        SmtpConfig.id).Nodup := by
    intro others hothers
    simp only [List.map_append, hothers, List.map_cons, List.map_nil]
    refine List.nodup_append.mpr ⟨h.primaryKey, List.nodup_singleton _, ?_⟩
    rintro id hid id' hid' rfl
    rw [List.mem_singleton.mp hid'] at hid
    exact hnew hid
  by_cases hchecked : isChecked form.enabled = true
  · have hkey := hkeys (disableOtherSmtpConfigs configs none) disableOther_map_id
    have hall : ∀ config ∈ disableOtherSmtpConfigs configs none ++
        [newConfig form values (nextId (configs.map SmtpConfig.id)) now],
        config.enabled = true → config.id = nextId (configs.map SmtpConfig.id) := by
      intro config hconfig hflag
      rcases List.mem_append.mp hconfig with hold | hown
      · cases (mem_disableOther hold hflag).2
      · rw [List.mem_singleton.mp hown]
        rfl
    have hsingle := singleEnabled_of hkey hall
    refine ⟨nextId (configs.map SmtpConfig.id), _, ?_, ⟨hkey, hsingle⟩, ?_⟩
    · simp only [createConfig, hchecked, if_true, if_pos hsingle]
    · rw [if_pos hchecked]
      exact (enabledIs_iff hkey hall).mpr
        ⟨newConfig form values (nextId (configs.map SmtpConfig.id)) now,
          List.mem_append_right _ (List.mem_singleton_self _), rfl, hchecked⟩
  · have hoff : isChecked form.enabled = false := Bool.eq_false_iff.mpr hchecked
    have hkey := hkeys configs rfl
    have hsingle : SingleEnabled (configs ++
        [newConfig form values (nextId (configs.map SmtpConfig.id)) now]) := by
      have hone := h.single
      simp only [SingleEnabled, List.countP_append, List.countP_singleton, newConfig, hoff] at hone ⊢
      exact hone
    refine ⟨nextId (configs.map SmtpConfig.id), _, ?_, ⟨hkey, hsingle⟩, ?_⟩
    · simp only [createConfig, if_neg hchecked, if_pos hsingle]
    · rw [if_neg hchecked]
      intro config hconfig hid
      rcases List.mem_append.mp hconfig with hold | hown
      · exact absurd (List.mem_map.mpr ⟨config, hold, hid⟩) hnew
      · rw [List.mem_singleton.mp hown]
        exact hoff

/-- The rows after the UPDATE of the row `id`. -/
theorem update_tableOk (hkey : (configs.map SmtpConfig.id).Nodup) {f : SmtpConfig → SmtpConfig}
    (hid : ∀ config, (f config).id = config.id) :
    ((configs.map fun config => if config.id = id then f config else config).map
      SmtpConfig.id).Nodup := by
  rw [List.map_map]
  have hids : configs.map (SmtpConfig.id ∘ fun config =>
      if config.id = id then f config else config) = configs.map SmtpConfig.id := by
    refine List.map_congr_left fun config _ => ?_
    simp only [Function.comp_apply]
    split
    case isTrue => exact hid config
    case isFalse => rfl
  rw [hids]
  exact hkey

section

variable {checked : Bool}

/-- A save is right when the flag of its row is. -/
theorem saved_iff (hkey : (configs.map SmtpConfig.id).Nodup) (hrow : row ∈ configs)
    (hid : row.id = id)
    (hall : checked = true → ∀ config ∈ configs, config.enabled = true → config.id = id) :
    (if checked then EnabledIs configs id else NotEnabled configs id) ↔ row.enabled = checked := by
  have hunique : ∀ config ∈ configs, config.id = id → config = row := fun config hconfig h =>
    List.inj_on_of_nodup_map hkey hconfig hrow (h.trans hid.symm)
  cases checked with
  | true =>
      rw [if_pos rfl, enabledIs_iff hkey (hall rfl)]
      constructor
      · rintro ⟨config, hconfig, hsame, hflag⟩
        rwa [hunique config hconfig hsame] at hflag
      · intro hflag
        exact ⟨row, hrow, hid, hflag⟩
  | false =>
      rw [if_neg Bool.false_ne_true]
      constructor
      · intro hoff
        exact hoff row hrow hid
      · intro hflag config hconfig hsame
        rwa [hunique config hconfig hsame]

/-- The row is gone. -/
theorem saved_iff_none (hkey : (configs.map SmtpConfig.id).Nodup)
    (hrow : id ∉ configs.map SmtpConfig.id)
    (hall : checked = true → ∀ config ∈ configs, config.enabled = true → config.id = id) :
    (if checked then EnabledIs configs id else NotEnabled configs id) ↔ checked = false := by
  cases checked with
  | true =>
      rw [if_pos rfl, enabledIs_iff hkey (hall rfl)]
      refine ⟨?_, fun h => by cases h⟩
      rintro ⟨config, hconfig, hsame, -⟩
      exact absurd (List.mem_map.mpr ⟨config, hconfig, hsame⟩) hrow
  | false =>
      rw [if_neg Bool.false_ne_true]
      refine ⟨fun _ => rfl, fun _ config hconfig hsame => ?_⟩
      exact absurd (List.mem_map.mpr ⟨config, hconfig, hsame⟩) hrow

end

/-- The rows that are left enabled before the UPDATE. -/
theorem others_spec (form : SmtpForm) (id : Nat) (h : TableOk configs) :
    let others :=
      if isChecked form.enabled then disableOtherSmtpConfigs configs (some id) else configs
    TableOk others ∧ others.map SmtpConfig.id = configs.map SmtpConfig.id ∧
      (isChecked form.enabled = true → ∀ config ∈ others, config.enabled = true →
        config.id = id) ∧
      ∀ config ∈ configs, config.id = id → config ∈ others := by
  intro others
  by_cases hchecked : isChecked form.enabled = true
  · have hothers : others = disableOtherSmtpConfigs configs (some id) := if_pos hchecked
    rw [hothers]
    refine ⟨disableOther_tableOk h, disableOther_map_id, fun _ config hconfig hflag => ?_,
      fun config hconfig hid => mem_disableOther_self hconfig (congrArg some hid)⟩
    exact Option.some.inj (mem_disableOther hconfig hflag).2
  · have hothers : others = configs := if_neg hchecked
    rw [hothers]
    exact ⟨h, rfl, fun hon => absurd hon hchecked, fun config hconfig _ => hconfig⟩

/-- The UPDATE of the row `loaded.id`. -/
theorem flush_spec (form : SmtpForm) (new : SmtpConfig) (h : TableOk configs) (hrow : row ∈ configs)
    (hid : row.id = loaded.id) (hnew : new.enabled = isChecked form.enabled)
    (hall : isChecked form.enabled = true → ∀ config ∈ configs, config.enabled = true →
      config.id = loaded.id) :
    let written := configs.map fun config =>
      if config.id = loaded.id then flushConfig loaded new config else config
    TableOk written ∧
      ((if isChecked form.enabled then EnabledIs written loaded.id
          else NotEnabled written loaded.id) ↔
        (isChecked form.enabled = loaded.enabled → row.enabled = loaded.enabled)) := by
  intro written
  have hkey : (written.map SmtpConfig.id).Nodup := update_tableOk h.primaryKey fun _ => rfl
  have hmem : flushConfig loaded new row ∈ written :=
    List.mem_map.mpr ⟨row, hrow, if_pos hid⟩
  have hall' : isChecked form.enabled = true → ∀ config ∈ written, config.enabled = true →
      config.id = loaded.id := by
    intro hchecked config hconfig
    obtain ⟨old, hold, rfl⟩ := List.mem_map.mp hconfig
    split
    case isTrue hsame => exact fun _ => hsame
    case isFalse => exact hall hchecked old hold
  refine ⟨⟨hkey, ?_⟩, ?_⟩
  · cases hchecked : isChecked form.enabled with
    | true => exact singleEnabled_of hkey (hall' hchecked)
    | false =>
        -- the flag of the row is kept or taken away
        refine Nat.le_trans ?_ h.single
        rw [List.countP_map]
        refine List.countP_mono_left fun config _ hflag => ?_
        simp only [Function.comp_apply] at hflag
        split at hflag
        case isTrue =>
          simp only [flushConfig, flushed, hnew, hchecked] at hflag
          split at hflag
          case isTrue => exact hflag
          case isFalse => cases hflag
        case isFalse => exact hflag
  · rw [saved_iff hkey hmem hid hall', ← hnew]
    exact flushed_eq_new

/-- An UPDATE keeps the keys, and its row is right where nobody else has changed the flag. -/
theorem updateConfig_spec (loaded : SmtpConfig) (form : SmtpForm) (values : Int × Int)
    (now : DateTime) (h : TableOk configs) :
    (updateConfig configs loaded form values now = .error .staleDataError ∧
      FlagKept configs loaded form values now) ∨
    ∃ written, updateConfig configs loaded form values now = .ok written ∧ TableOk written ∧
      ((if isChecked form.enabled then EnabledIs written loaded.id
          else NotEnabled written loaded.id) ↔ FlagKept configs loaded form values now) := by
  obtain ⟨hothers, hids, hall, hkept⟩ := others_spec form loaded.id h
  simp only [updateConfig, FlagKept]
  by_cases hsame : assign loaded form values now = loaded
  · right
    have hflag : isChecked form.enabled = loaded.enabled := congrArg SmtpConfig.enabled hsame
    refine ⟨_, if_pos hsame, hothers, ?_⟩
    cases hfind : findConfig configs loaded.id with
    | some row =>
        obtain ⟨hrow, hid⟩ := findConfig_id hfind
        rw [saved_iff hothers.primaryKey (hkept row hrow hid) hid hall]
        simp only [hflag, true_imp_iff]
    | none =>
        have hgone := findConfig_eq_none.mp hfind
        rw [← hids] at hgone
        rw [saved_iff_none hothers.primaryKey hgone hall]
        simp only [hsame, true_imp_iff]
  · by_cases hgone : loaded.id ∉ configs.map SmtpConfig.id
    · left
      rw [if_neg hsame, if_pos hgone, findConfig_eq_none.mpr hgone]
      exact ⟨rfl, fun h => absurd h hsame⟩
    · right
      obtain ⟨row, hrow, hid⟩ := List.mem_map.mp (not_not.mp hgone)
      obtain ⟨hok, hiff⟩ := flush_spec form (assign loaded form values now) hothers
        (hkept row hrow hid) hid rfl hall
      rw [findConfig_eq_some h.primaryKey hrow hid]
      refine ⟨_, ?_, hok, hiff⟩
      rw [if_neg hsame, if_neg hgone, if_pos hok.single]

/-! ## The runs -/

structure Inv (s : State ι) : Prop where
  table : TableOk s.configs
  noIntegrityError : ∀ i, s.phase i ≠ .finished (.raised .integrityError)

theorem Inv.update (h : Inv s) {phase : Phase} (hok : TableOk configs)
    (hphase : phase ≠ .finished (.raised .integrityError)) :
    Inv { configs, phase := Function.update s.phase i phase } := by
  refine ⟨hok, fun j => ?_⟩
  rcases eq_or_ne j i with rfl | hji
  · simpa only [Function.update_self] using hphase
  · simpa only [Function.update_of_ne hji] using h.noIntegrityError j

theorem Inv.load (h : Inv s) (configId : Nat) : Inv (load s i configId) := by
  simp only [SmtpSettings.load]
  cases findConfig s.configs configId with
  | none => exact h.update h.table (by simp)
  | some config => exact h.update h.table (by simp)

/-- A write step that saves nothing asks nothing of `SavedRight`. -/
theorem savedRight_of (ht : step requests s (.write i now) = some t)
    (h : ∀ id, t.phase i ≠ .finished (.saved id)) : SavedRight requests s (.write i now) := by
  rintro t' _ _ id form ht' ⟨rfl, rfl⟩ hsaved -
  rw [ht] at ht'
  cases ht'
  exact absurd hsaved (h id)

theorem savedRight_iff (form : SmtpForm) (ht : step requests s (.write i now) = some t)
    (hsaved : t.phase i = .finished (.saved id)) (hform : (requests i).form = some form) :
    SavedRight requests s (.write i now) ↔
      if isChecked form.enabled then EnabledIs t.configs id else NotEnabled t.configs id := by
  constructor
  · intro h
    exact h t i now id form ht rfl hsaved hform
  · rintro h t' _ _ id' form' ht' ⟨rfl, rfl⟩ hsaved' hform'
    rw [ht] at ht'
    cases ht'
    rw [hsaved] at hsaved'
    rw [hform] at hform'
    cases hsaved'
    cases hform'
    exact h

omit [DecidableEq ι] in
theorem undisturbed_iff {configId : Nat} (hphase : s.phase i = .loaded loaded)
    (hreq : requests i = .update configId form) (hvalues : smtpValues form = .ok values) :
    Undisturbed requests s (.write i now) ↔ FlagKept s.configs loaded form values now := by
  constructor
  · intro hkept
    exact hkept loaded configId form values hphase hreq hvalues
  · intro hkept loaded' configId' form' values' hphase' hreq' hvalues'
    rw [hphase] at hphase'
    rw [hreq] at hreq'
    cases hphase'
    cases hreq'
    rw [hvalues] at hvalues'
    cases hvalues'
    exact hkept

/-- **One step.** -/
theorem step_spec {a : Label ι} (h : Inv s) (ht : step requests s a = some t) :
    Inv t ∧ (SavedRight requests s a ↔ Undisturbed requests s a) := by
  have hstep := ht
  cases a with
  | load i =>
      have hright : SavedRight requests s (.load i) := by
        rintro _ _ _ _ _ _ ⟨⟩
      refine ⟨?_, iff_of_true hright trivial⟩
      simp only [step] at ht
      split at ht
      case h_1 =>
        cases ht
        exact h.load _
      case h_2 =>
        cases ht
        exact h.load _
      case h_3 => cases ht
  | write i now =>
      simp only [step] at ht
      split at ht
      case h_1 form hphase hreq =>
        have hquiet : Undisturbed requests s (.write i now) := by
          intro loaded _ _ _ hloaded
          rw [hphase] at hloaded
          cases hloaded
        split at ht
        case h_1 =>
          cases ht
          refine ⟨h.update h.table (by simp), iff_of_true (savedRight_of hstep ?_) hquiet⟩
          simp [State.finish]
        case h_2 values hvalues =>
          obtain ⟨id, written, hcreate, hok, hright⟩ :=
            createConfig_spec form values now h.table
          rw [hcreate] at ht
          cases ht
          refine ⟨h.update hok (by simp), iff_of_true ?_ hquiet⟩
          refine (savedRight_iff form hstep (Function.update_self ..) ?_).mpr hright
          rw [hreq]
          rfl
      case h_2 loaded configId form hphase hreq =>
        split at ht
        case h_1 error hvalues =>
          cases ht
          refine ⟨h.update h.table (by simp), iff_of_true (savedRight_of hstep ?_) ?_⟩
          · simp [State.finish]
          · intro _ _ form' values _ hreq' hvalues'
            rw [hreq] at hreq'
            cases hreq'
            rw [hvalues] at hvalues'
            cases hvalues'
        case h_2 values hvalues =>
          rcases updateConfig_spec loaded form values now h.table with
            ⟨herror, hkept⟩ | ⟨written, hupdate, hok, hiff⟩
          · rw [herror] at ht
            cases ht
            refine ⟨h.update h.table (by simp), iff_of_true (savedRight_of hstep ?_) ?_⟩
            · simp [State.finish]
            · exact (undisturbed_iff hphase hreq hvalues).mpr hkept
          · rw [hupdate] at ht
            cases ht
            refine ⟨h.update hok (by simp), ?_⟩
            rw [undisturbed_iff hphase hreq hvalues, ← hiff]
            refine savedRight_iff form hstep (Function.update_self ..) ?_
            rw [hreq]
            rfl
      case h_3 loaded configId hphase hreq =>
        cases ht
        refine ⟨h.update ⟨h.table.primaryKey.sublist (List.filter_sublist.map _),
          Nat.le_trans (List.Sublist.countP_le List.filter_sublist) h.table.single⟩ (by simp),
          iff_of_true (savedRight_of hstep ?_) ?_⟩
        · simp [State.finish]
        · intro _ _ _ _ _ hreq'
          rw [hreq] at hreq'
          cases hreq'
      case h_4 => cases ht

/-- The requests come in, and the table has its keys. -/
structure Initial (s : State ι) : Prop where
  table : TableOk s.configs
  idle : ∀ i, s.phase i = .idle

/-- At every point of every run at most one mail server is enabled, and no request fails on the
index; and every save leaves its row as it was asked to exactly when every UPDATE finds the flag
that its request loaded. -/
theorem enabled_smtp_config {labels : List (Label ι)} (h : Initial s)
    (hrun : fire (step requests) s labels = some t) :
    SingleEnabled t.configs ∧ (∀ i, t.phase i ≠ .finished (.raised .integrityError)) ∧
      (Every (step requests) (SavedRight requests) s labels ↔
        Every (step requests) (Undisturbed requests) s labels) := by
  have hinv : Inv s := ⟨h.table, fun i => by simp [h.idle i]⟩
  have hkeeps : ∀ s a t, Inv s → step requests s a = some t → Inv t :=
    fun s a t hs ht => (step_spec hs ht).1
  obtain ⟨hok, hno⟩ := fire_invariant hkeeps hinv hrun
  exact ⟨hok.single, hno, every_iff hkeeps (fun s a t hs ht => (step_spec hs ht).2) hinv hrun⟩

/-! ## Two administrators -/

def mailServer (id : Nat) (enabled : Bool) : SmtpConfig where
  id
  host := "smtp.example.com"
  port := 587
  username := ""
  encryptedPassword := "secret"
  sender := "alerts@example.com"
  useTls := true
  useSsl := false
  timeoutSeconds := 10
  enabled
  updatedAt := 0

def enablingForm : SmtpForm where
  host := "smtp.example.com"
  port := "587"
  username := ""
  password := ""
  encryptedPassword := ""
  sender := "alerts@example.com"
  useTls := some "on"
  useSsl := none
  enabled := some "on"
  timeoutSeconds := "10"

/-- The first saves the enabled mail server again, and the second enables the other one. -/
def bothEnable : Fin 2 → Request := ![.update 1 enablingForm, .update 2 enablingForm]

def twoServers : State (Fin 2) where
  configs := [mailServer 1 true, mailServer 2 false]
  phase _ := .idle

theorem twoServers_initial : Initial twoServers where
  table := ⟨by decide, by decide⟩
  idle _ := rfl

theorem enabled_smtp_config_oneAfterTheOther :
    ∃ t, fire (step bothEnable) twoServers [.load 0, .write 0 1, .load 1, .write 1 2] = some t ∧
      SingleEnabled t.configs ∧ (∀ i, t.phase i ≠ .finished (.raised .integrityError)) ∧
      (Every (step bothEnable) (SavedRight bothEnable) twoServers
          [.load 0, .write 0 1, .load 1, .write 1 2] ↔
        Every (step bothEnable) (Undisturbed bothEnable) twoServers
          [.load 0, .write 0 1, .load 1, .write 1 2]) := by
  obtain ⟨t, ht⟩ : ∃ t,
      fire (step bothEnable) twoServers [.load 0, .write 0 1, .load 1, .write 1 2] = some t :=
    Option.isSome_iff_exists.mp (by decide +kernel)
  exact ⟨t, ht, enabled_smtp_config twoServers_initial ht⟩

/-- The second is saved between the load and the save of the first, and no mail server is left. -/
theorem both_saved :
    ∃ t, fire (step bothEnable) twoServers [.load 0, .load 1, .write 1 1, .write 0 2] = some t ∧
      t.phase 0 = .finished (.saved 1) ∧ t.phase 1 = .finished (.saved 2) ∧
      t.configs.countP SmtpConfig.enabled = 0 ∧
      ¬ Every (step bothEnable) (SavedRight bothEnable) twoServers
        [.load 0, .load 1, .write 1 1, .write 0 2] := by
  have hafter : (fire (step bothEnable) twoServers ([.load 0, .load 1, .write 1 1] ++
      [.write 0 2])).map (fun t => (t.configs, t.phase 0, t.phase 1)) =
      some ([{ mailServer 1 false with updatedAt := 2 }, { mailServer 2 false with updatedAt := 1 }],
        .finished (.saved 1), .finished (.saved 2)) := by
    decide +kernel
  obtain ⟨t, ht, hleft⟩ := Option.map_eq_some_iff.mp hafter
  simp only [Prod.mk.injEq] at hleft
  obtain ⟨hconfigs, hfirst, hsecond⟩ := hleft
  refine ⟨t, ht, hfirst, hsecond, by rw [hconfigs]; rfl, fun hevery => ?_⟩
  obtain ⟨u, hu, hlast⟩ := fire_append.mp ht
  obtain ⟨v, hstep, hend⟩ := fire_cons.mp hlast
  rw [fire_nil.mp hend] at hstep
  have hright : SavedRight bothEnable u (.write 0 2) := hevery.last hu
  have henabled : EnabledIs t.configs 1 := hright t 0 2 1 enablingForm hstep rfl hfirst rfl
  rw [hconfigs] at henabled
  have hnone : ([] : List Nat) = [1] := henabled
  cases hnone

end EarlyWarning.SmtpSettings
