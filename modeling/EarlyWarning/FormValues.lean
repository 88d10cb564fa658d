/-
# `FormValues` — what the handlers of `app/routes.py` read of a form

A form has strings, and a check box that is not checked has no value at all.  A number is read
with `int`, and must be between its bounds; the two numbers of a form are read one after the
other, and the first error is the one that is shown.
-/
import EarlyWarning.Lib.PyText

namespace EarlyWarning

open Lib

/-- `_is_checked` -/
def isChecked : Option String → Bool
  | some value => value ∈ ["on", "true", "1"]
  | none => false

/-- `_validate_bounded_int`, of an `int`. -/
def validateBoundedInt (value : Int) (label : String) (minimum maximum : Int) : Option String :=
  if minimum ≤ value ∧ value ≤ maximum then none
  else some s!"{label}必须在 {minimum} 至 {maximum} 之间"

/-- `_parse_bounded_int` -/
def parseBoundedInt (value : PyText) (label : String) (minimum maximum : Int) :
    Except String Int :=
  match PyText.int? value with
  | none => .error s!"{label}必须是整数"
  | some parsed =>
      match validateBoundedInt parsed label minimum maximum with
      | none => .ok parsed
      | some error => .error error

/-- Two numbers from 1 on. -/
def parseBoundedPair (first second : PyText) (firstLabel secondLabel : String)
    (firstMaximum secondMaximum : Int) : Except String (Int × Int) :=
  match parseBoundedInt first firstLabel 1 firstMaximum with
  | .error error => .error error
  | .ok parsedFirst =>
      match parseBoundedInt second secondLabel 1 secondMaximum with
      | .error error => .error error
      | .ok parsedSecond => .ok (parsedFirst, parsedSecond)

/-- `_parse_rule_limits` -/
def parseRuleLimits (queryTimeoutSeconds maxRows : PyText) : Except String (Int × Int) :=
  parseBoundedPair queryTimeoutSeconds maxRows "查询超时" "最大行数" 600 5000

/-- `_parse_sql_connection_values` -/
def parseSqlConnectionValues (port connectTimeoutSeconds : PyText) : Except String (Int × Int) :=
  parseBoundedPair port connectTimeoutSeconds "端口" "连接超时" 65535 600

/-- `_parse_smtp_values` -/
def parseSmtpValues (port timeoutSeconds : PyText) : Except String (Int × Int) :=
  parseBoundedPair port timeoutSeconds "端口" "SMTP 超时" 65535 600

variable {value first second : PyText} {label firstLabel secondLabel : String}
  {minimum maximum firstMaximum secondMaximum parsed a b : Int}

theorem validateBoundedInt_eq_none :
    validateBoundedInt parsed label minimum maximum = none ↔ minimum ≤ parsed ∧ parsed ≤ maximum := by
  simp only [validateBoundedInt]
  split <;> simp_all

theorem parseBoundedInt_eq_ok (h : parseBoundedInt value label minimum maximum = .ok parsed) :
    PyText.int? value = some parsed ∧ minimum ≤ parsed ∧ parsed ≤ maximum := by
  simp only [parseBoundedInt] at h
  split at h
  case h_1 => cases h
  case h_2 _ hint =>
    split at h
    case h_1 hbounds =>
      cases h
      exact ⟨hint, validateBoundedInt_eq_none.mp hbounds⟩
    case h_2 => cases h

theorem parseBoundedPair_eq_ok
    (h : parseBoundedPair first second firstLabel secondLabel firstMaximum secondMaximum =
      .ok (a, b)) : (1 ≤ a ∧ a ≤ firstMaximum) ∧ 1 ≤ b ∧ b ≤ secondMaximum := by
  simp only [parseBoundedPair] at h
  split at h
  case h_1 => cases h
  case h_2 _ hfirst =>
    split at h
    case h_1 => cases h
    case h_2 _ hsecond =>
      cases h
      exact ⟨(parseBoundedInt_eq_ok hfirst).2, (parseBoundedInt_eq_ok hsecond).2⟩

/-- An integer that SQLite has room for. -/
def IsInt64 (n : Int) : Prop := -2 ^ 63 ≤ n ∧ n < 2 ^ 63

instance (n : Int) : Decidable (IsInt64 n) := inferInstanceAs (Decidable (_ ∧ _))

/-- What the handlers of the settings and of the rules let through, and the server answers with
status 500. -/
inductive ServerError
  | integrityError
  | staleDataError
  | overflowError
  | unicodeEncodeError
  | recursionError
deriving DecidableEq, Repr

end EarlyWarning
