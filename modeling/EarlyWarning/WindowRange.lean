/-
# `WindowRange` — the suppression windows that an execution can use

The form and the import ask for a positive window, and for no more than that; the timeout and the
number of rows of a rule have bounds on both sides.  Then the window is written to a column of 64
bits, and every execution subtracts it from its time: a `timedelta` has at most 999999999 days,
and a `datetime` no year before the year 1.

`accepted_window`: the windows that an execution can use from 2026 on are those of at most
17750784 hours.
-/
import EarlyWarning.ExecutionService
import EarlyWarning.RuleExport

namespace EarlyWarning.WindowRange

open Lib RuleStore

/-- `datetime(2026, 1, 1)` -/
def year2026 : DateTime := 739616 * 24 * DateTime.hour

/-- The hours from `datetime.min` to 2026. -/
def maxUsableHours : Int := 17750784

section

variable {φ : Type} (libs : RuleLibraries φ) (sources : List SqlDataSource)

/-- The rules that `create_rule` and `update_rule` accept, and those that `import_rules_json`
does. -/
inductive Accepted : RuleValues → Prop
  | form {form : RuleForm} {validated : ValidatedForm} (notes : PyText) :
      validateRuleForm libs sources form = .ok validated →
      Accepted (form.values validated notes)
  | imported {fields : Fields φ} {index : Nat} {values : RuleValues} :
      importRule libs fields sources index = .ok values → Accepted values

end

/-- The window can be stored, and whenever the rule is executed there is a cutoff. -/
structure Usable (windowHours : Int) : Prop where
  stored : storeInt windowHours = .ok windowHours
  cutoff : ∀ now, year2026 ≤ now → now ≤ DateTime.maxValue →
    ∃ cutoff, suppressionCutoff now windowHours = .ok cutoff

variable {φ : Type} {libs : RuleLibraries φ} {sources : List SqlDataSource} {values : RuleValues}
  {windowHours now : Int}

theorem Accepted.valid (h : Accepted libs sources values) : values.Valid libs sources := by
  cases h with
  | form notes hvalidated => exact validateRuleForm_valid hvalidated notes
  | imported himported =>
      obtain ⟨himportable, rfl⟩ := importRule_eq_ok.mp himported
      exact himportable.valid

/-- The two conversions of `_build_suppression_filter`. -/
theorem suppressionCutoff_isOk : (∃ cutoff, suppressionCutoff now windowHours = .ok cutoff) ↔
    (windowHours * DateTime.hour / (24 * DateTime.hour)).natAbs ≤ DateTime.maxDays.natAbs ∧
      0 ≤ now - windowHours * DateTime.hour ∧
      now - windowHours * DateTime.hour ≤ DateTime.maxValue := by
  simp only [suppressionCutoff, bind_eq_ok, DateTime.timedelta, DateTime.add, ← Int.sub_eq_add_neg]
  constructor
  · rintro ⟨cutoff, window, hwindow, hcutoff⟩
    split at hwindow
    case isTrue hdays =>
      cases hwindow
      split at hcutoff
      case isTrue hrange => exact ⟨hdays, hrange⟩
      case isFalse => cases hcutoff
    case isFalse => cases hwindow
  · rintro ⟨hdays, hrange⟩
    exact ⟨_, _, if_pos hdays, if_pos hrange⟩

/-- The same, in hours and microseconds. -/
theorem suppressionCutoff_isOk_of_pos (hpos : 1 ≤ windowHours) (hnow : now ≤ 315537897599999999) :
    (∃ cutoff, suppressionCutoff now windowHours = .ok cutoff) ↔
      windowHours * 3600000000 ≤ now := by
  have hhour : DateTime.hour = 3600000000 := rfl
  have hdays : DateTime.maxDays.natAbs = 999999999 := rfl
  have hmax : DateTime.maxValue = 315537897599999999 := rfl
  rw [suppressionCutoff_isOk, hhour, hdays, hmax]
  constructor
  · rintro ⟨-, hmin, -⟩
    omega
  · intro hle
    refine ⟨?_, ?_, ?_⟩ <;> omega

theorem usable_iff (hpos : 1 ≤ windowHours) : Usable windowHours ↔ windowHours ≤ maxUsableHours := by
  have hyear : year2026 = maxUsableHours * 3600000000 := rfl
  constructor
  · rintro ⟨-, hcutoff⟩
    have hfirst := (suppressionCutoff_isOk_of_pos hpos (by decide)).mp
      (hcutoff year2026 (Int.le_refl _) (by decide))
    rw [hyear] at hfirst
    omega
  · intro hle
    have hbits : windowHours ≤ 17750784 := hle
    refine ⟨storeInt_eq_ok.mpr ⟨⟨by omega, by omega⟩, rfl⟩, fun now hnow hmax => ?_⟩
    rw [suppressionCutoff_isOk_of_pos hpos hmax]
    exact Int.le_trans (Int.mul_le_mul_of_nonneg_right hle (by decide)) (hyear ▸ hnow)

/-- A window that is accepted with suppression on can be used exactly when it is at most 17750784
hours long. -/
theorem accepted_window (h : Accepted libs sources values)
    (hsuppress : values.suppressDuplicates = true) :
    Usable values.suppressionWindowHours ↔ values.suppressionWindowHours ≤ maxUsableHours :=
  usable_iff (h.valid.suppression hsuppress).2

/-- The form of a rule with this window and suppression on. -/
def windowForm (windowHours : Int) : RuleForm :=
  { ruleForm with
    suppressDuplicates := some (.ofString "on")
    suppressionKeyField := .ofString "id"
    suppressionWindowHours := windowHours }

def windowFormValidated : ValidatedForm where
  sourceId := 1
  sendMode := .summary
  queryTimeoutSeconds := 30
  maxRows := 500

theorem accepted_window_day :
    Usable ((windowForm 24).values windowFormValidated []).suppressionWindowHours ↔
      ((windowForm 24).values windowFormValidated []).suppressionWindowHours ≤ maxUsableHours :=
  accepted_window (.form [] (by decide +kernel :
    validateRuleForm plainLibraries [mainSource] (windowForm 24) = .ok windowFormValidated))
    (by decide)

/-- A window of more than 2026 years is accepted, and no execution in 2026 gets past it. -/
theorem window_too_long :
    validateRuleForm plainLibraries [mainSource] (windowForm 17750785) = .ok windowFormValidated ∧
      ((windowForm 17750785).values windowFormValidated []).suppressDuplicates = true ∧
      suppressionCutoff year2026 17750785 = .error (overflowError "date value out of range") ∧
      ¬ Usable 17750785 := by
  refine ⟨by decide +kernel, by decide, by decide, ?_⟩
  rw [usable_iff (by decide)]
  decide

end EarlyWarning.WindowRange
