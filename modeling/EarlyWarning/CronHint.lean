/-
# `CronHint` — what the rule form says about a cron expression

`parseCronField` and `humanizeCron` of `app/static/app.js`.  Beside the field of the cron expression
the form shows a sentence: every so many minutes, hourly, on these weekdays, on these days.  The
sentence is read as the set of minutes it names (`CronHint.Describes`), and the expression as the
minutes that match its five fields (`CronFields.Fires`), which is how the scheduler runs it.

`humanizeCron_iff`: the two agree unless the sentence leaves out a field that restricts the
schedule, or the fields are apart by a character that is a blank for the browser only.
-/
import EarlyWarning.Lib.Calendar
import EarlyWarning.Lib.JsNumber
import EarlyWarning.Lib.PyStr
import EarlyWarning.Lib.Words
import Mathlib.Data.Bool.AllAny

namespace EarlyWarning.Cron

open Lib

/-! ## Fields -/

/-- A field, whose step is a number of `ν`. -/
inductive CronField (ν : Type)
  | any
  | step (step : ν)
  | list (values : List Nat)
deriving DecidableEq

structure CronFields (ν : Type) where
  minute : CronField ν
  hour : CronField ν
  dayOfMonth : CronField ν
  month : CronField ν
  dayOfWeek : CronField ν
deriving DecidableEq

/-- `\d+` -/
def isNumber (token : List Char) : Bool := !token.isEmpty && token.all Char.isDigit

/-- The three shapes that a field may have, with the digits of its numbers. -/
inductive Shape
  | any
  | step (digits : List Char)
  | list (pieces : List (List Char))
deriving DecidableEq

/-- `*`, `^\*\/(\d+)$` and `^\d+(,\d+)*$` -/
def shape? (token : List Char) : Option Shape :=
  if token = ['*'] then some .any
  else if token.take 2 = ['*', '/'] ∧ isNumber (token.drop 2) then some (.step (token.drop 2))
  else if (token.splitOn ',').all isNumber then some (.list (token.splitOn ','))
  else none

/-- `parseCronField` -/
def parseCronField (token : List Char) (minimum maximum : Nat) : Option (CronField JsNumber) :=
  match shape? token with
  | none => none
  | some .any => some .any
  | some (.step digits) =>
      if (JsNumber.ofDigits digits).atLeast 1 then some (.step (JsNumber.ofDigits digits)) else none
  | some (.list pieces) =>
      (pieces.mapM fun piece => (JsNumber.ofDigits piece).inRange? minimum maximum).map .list

/-- The five fields of an expression, each with its bounds. -/
def fieldsOf {ν : Type} (parse : List Char → Nat → Nat → Option (CronField ν)) :
    List (List Char) → Option (CronFields ν)
  | [minute, hour, dayOfMonth, month, dayOfWeek] => do
      let minute ← parse minute 0 59
      let hour ← parse hour 0 23
      let dayOfMonth ← parse dayOfMonth 1 31
      let month ← parse month 1 12
      let dayOfWeek ← parse dayOfWeek 0 6
      some { minute, hour, dayOfMonth, month, dayOfWeek }
  | _ => none

/-- `\s` -/
def isJsBlank (c : Char) : Bool :=
  c ∈ ['\t', '\n', '\x0b', '\x0c', '\r', ' ', '\u00a0', '\u1680', '\u2028', '\u2029', '\u202f',
    '\u205f', '\u3000', '\ufeff'] ||
  ('\u2000' ≤ c && c ≤ '\u200a')

/-- `expression.trim().split(/\s+/)`; an expression of blanks has one empty token. -/
def jsTokens (expression : String) : List (List Char) :=
  if words isJsBlank expression.toList = [] then [[]] else words isJsBlank expression.toList

/-! ## The hint -/

/-- The sentences of `humanizeCron`. -/
inductive CronHint
  | everyMinutes (step : JsNumber)
  | hourly (minute : Nat)
  | weekly (weekdays : List Nat) (hour minute : Nat)
  | yearlyDays (months days : List Nat) (hour minute : Nat)
  | monthly (days : List Nat) (hour minute : Nat)
  | yearly (months : List Nat) (hour minute : Nat)
  | daily (hour minute : Nat)
deriving DecidableEq

/-- `CRON_WEEKDAY_NAMES` -/
def cronWeekdayNames : List String := ["周一", "周二", "周三", "周四", "周五", "周六", "周日"]

/-- `String(value).padStart(2, "0")` -/
def pad (value : Nat) : String := if value < 10 then "0" ++ toString value else toString value

def timeText (hour minute : Nat) : String := pad hour ++ ":" ++ pad minute

/-- What `humanizeCron` returns.  How a step is written is an argument. -/
def CronHint.text (toText : JsNumber → String) : CronHint → String
  | .everyMinutes step => s!"每 {toText step} 分钟执行"
  | .hourly minute => if minute = 0 then "每小时执行" else s!"每小时第 {minute} 分执行"
  | .weekly weekdays hour minute =>
      let names := PyStr.join "、" (weekdays.map fun value => cronWeekdayNames.getD value "")
      s!"每{names} {timeText hour minute} 执行"
  | .yearlyDays months days hour minute =>
      let months := PyStr.join "、" (months.map fun value => s!"{value} 月")
      let days := PyStr.join "、" (days.map fun value => s!"{value} 日")
      s!"每年 {months} {days} {timeText hour minute} 执行"
  | .monthly days hour minute =>
      let days := PyStr.join "、" (days.map fun value => s!"{value} 日")
      s!"每月 {days} {timeText hour minute} 执行"
  | .yearly months hour minute =>
      let months := PyStr.join "、" (months.map fun value => s!"{value} 月")
      s!"每年 {months} {timeText hour minute} 执行"
  | .daily hour minute => s!"每天 {timeText hour minute} 执行"

/-- `singleValue` -/
def CronField.singleValue {ν : Type} : CronField ν → Option Nat
  | .list [value] => some value
  | _ => none

/-- The day that a hint of this time shows. -/
def describeDay {ν : Type} (fields : CronFields ν) (hour minute : Nat) : CronHint :=
  match fields.dayOfWeek, fields.dayOfMonth, fields.month with
  | .list weekdays, _, _ => .weekly weekdays hour minute
  | _, .list days, .list months => .yearlyDays months days hour minute
  | _, .list days, _ => .monthly days hour minute
  | _, _, .list months => .yearly months hour minute
  | _, _, _ => .daily hour minute

/-- `onlyTimeAny` -/
def CronFields.OnlyTimeAny {ν : Type} (fields : CronFields ν) : Prop :=
  fields.dayOfMonth = .any ∧ fields.month = .any ∧ fields.dayOfWeek = .any

instance {ν : Type} [DecidableEq ν] (fields : CronFields ν) : Decidable fields.OnlyTimeAny :=
  inferInstanceAs (Decidable (_ ∧ _ ∧ _))

/-- `humanizeCron`, after the sentence about a step of minutes -/
def describeTime {ν : Type} [DecidableEq ν] (fields : CronFields ν) : Option CronHint :=
  match fields.minute.singleValue with
  | none => none
  | some minuteValue =>
      match fields.hour.singleValue with
      | none => if fields.OnlyTimeAny then some (.hourly minuteValue) else none
      | some hourValue => some (describeDay fields hourValue minuteValue)

/-- `humanizeCron`, of the fields -/
def describe (fields : CronFields JsNumber) : Option CronHint :=
  match fields.minute with
  | .step step =>
      if fields.hour = .any ∧ fields.OnlyTimeAny then some (.everyMinutes step)
      else describeTime fields
  | _ => describeTime fields

/-- `humanizeCron` -/
def humanizeCron (expression : String) : Option CronHint :=
  (fieldsOf parseCronField (jsTokens expression)).bind describe

example : (humanizeCron " 5 9 1,15  * *").map (CronHint.text fun _ => "") =
    some "每月 1 日、15 日 09:05 执行" := by decide +kernel

/-! ## The schedule -/

/-- A minute on a clock. -/
structure LocalMinute extends Calendar.Date where
  hour : Nat
  minute : Nat
  hour_lt : hour < 24
  minute_lt : minute < 60
deriving DecidableEq

/-- The minutes that a hint names. -/
def CronHint.Describes (t : LocalMinute) : CronHint → Prop
  | .everyMinutes step => step.Divides t.minute
  | .hourly minute => t.minute = minute
  | .weekly weekdays hour minute => t.weekday ∈ weekdays ∧ t.hour = hour ∧ t.minute = minute
  | .yearlyDays months days hour minute =>
      t.month ∈ months ∧ t.day ∈ days ∧ t.hour = hour ∧ t.minute = minute
  | .monthly days hour minute => t.day ∈ days ∧ t.hour = hour ∧ t.minute = minute
  | .yearly months hour minute => t.month ∈ months ∧ t.hour = hour ∧ t.minute = minute
  | .daily hour minute => t.hour = hour ∧ t.minute = minute

/-- A field of these bounds, with exact numbers. -/
def cronField? (token : List Char) (minimum maximum : Nat) : Option (CronField Nat) :=
  match shape? token with
  | none => none
  | some .any => some .any
  | some (.step digits) =>
      if 1 ≤ Nat.ofDigitChars 10 digits 0 then some (.step (Nat.ofDigitChars 10 digits 0)) else none
  | some (.list pieces) =>
      (pieces.mapM fun piece =>
        if minimum ≤ Nat.ofDigitChars 10 piece 0 ∧ Nat.ofDigitChars 10 piece 0 ≤ maximum then
          some (Nat.ofDigitChars 10 piece 0)
        else none).map .list

/-- The fields of `CronTrigger.from_crontab(expression)`, which splits with `expression.split()`;
`none` where one of them has another shape than those of the hint. -/
def cronFields (expression : String) : Option (CronFields Nat) :=
  fieldsOf cronField? (words PyStr.isSpace expression.toList)

/-- A step counts from the least value of the field. -/
def CronField.Matches (minimum value : Nat) : CronField Nat → Prop
  | .any => True
  | .step n => n ∣ value - minimum
  | .list values => value ∈ values

instance (minimum value : Nat) : (field : CronField Nat) →
    Decidable (field.Matches minimum value)
  | .any => inferInstanceAs (Decidable True)
  | .step n => inferInstanceAs (Decidable (n ∣ value - minimum))
  | .list values => inferInstanceAs (Decidable (value ∈ values))

/-- All five fields match the minute. -/
structure CronFields.Fires (fields : CronFields Nat) (t : LocalMinute) : Prop where
  minute : fields.minute.Matches 0 t.minute
  hour : fields.hour.Matches 0 t.hour
  dayOfMonth : fields.dayOfMonth.Matches 1 t.day
  month : fields.month.Matches 1 t.month
  dayOfWeek : fields.dayOfWeek.Matches 0 t.weekday

/-- The hint of the expression, if it has one, names the minutes at which the schedule fires. -/
def Faithful (expression : String) : Prop :=
  ∀ hint, humanizeCron expression = some hint →
    ∃ fields, cronFields expression = some fields ∧ ∀ t, hint.Describes t ↔ fields.Fires t

/-! ## When the hint is right -/

def CronField.isList {ν : Type} : CronField ν → Bool
  | .list _ => true
  | _ => false

/-- Every value of the bounds matches. -/
def CronField.Full (minimum maximum : Nat) (field : CronField Nat) : Prop :=
  ∀ value ≤ maximum, minimum ≤ value → field.Matches minimum value

/-- The shapes that there is a sentence for: a step of minutes and nothing else, a minute of every
hour, and a minute of an hour. -/
def CronFields.Described (fields : CronFields Nat) : Prop :=
  (∃ step, fields.minute = .step step) ∧ fields.hour = .any ∧ fields.OnlyTimeAny ∨
    ∃ minute, fields.minute = .list [minute] ∧
      (fields.OnlyTimeAny ∨ ∃ hour, fields.hour = .list [hour])

/-- A field that the sentence does not show restricts nothing.  A list of weekdays hides the days
and the months, which are shown when they are lists. -/
structure CronFields.Shown (fields : CronFields Nat) : Prop where
  hour : fields.hour.singleValue = none → fields.hour.Full 0 23
  dayOfMonth : (fields.dayOfWeek.isList ∨ ¬ fields.dayOfMonth.isList) → fields.dayOfMonth.Full 1 31
  month : (fields.dayOfWeek.isList ∨ ¬ fields.month.isList) → fields.month.Full 1 12
  dayOfWeek : ¬ fields.dayOfWeek.isList → fields.dayOfWeek.Full 0 6

/-- The sentence shows days and months, and none of the months has one of the days. -/
def CronFields.Never (fields : CronFields Nat) : Prop :=
  ¬ fields.dayOfWeek.isList ∧ ∃ days months, fields.dayOfMonth = .list days ∧
    fields.month = .list months ∧
    ∀ day ∈ days, ∀ month ∈ months, Calendar.daysInMonth true month < day

/-- The byte order mark is a blank for the browser and none for the scheduler. -/
def Tellable (expression : String) : Prop :=
  ∀ fields, fieldsOf cronField? (jsTokens expression) = some fields → fields.Described →
    '\ufeff' ∉ expression.toList ∧ (fields.Shown ∨ fields.Never)

/-! ## Reading the fields -/

section

variable {α β : Type} {f : α → β} {field : CronField α} {token : List Char}
  {minimum maximum value : Nat} {fields : CronFields Nat} {tokens : List (List Char)}
  {expression : String} {hint : CronHint}

def CronField.map (f : α → β) : CronField α → CronField β
  | .any => .any
  | .step n => .step (f n)
  | .list values => .list values

def CronFields.map (f : α → β) (fields : CronFields α) : CronFields β where
  minute := fields.minute.map f
  hour := fields.hour.map f
  dayOfMonth := fields.dayOfMonth.map f
  month := fields.month.map f
  dayOfWeek := fields.dayOfWeek.map f

/-- The two read the same fields. -/
theorem parseCronField_eq (hmax : maximum < 2 ^ 53) : parseCronField token minimum maximum =
    (cronField? token minimum maximum).map (CronField.map JsNumber.ofNat) := by
  simp only [parseCronField, cronField?]
  split
  case h_1 => rfl
  case h_2 => rfl
  case h_3 digits hshape =>
    rw [JsNumber.ofDigits, JsNumber.atLeast_one_ofNat]
    split
    case isTrue hpos =>
      rw [if_pos (of_decide_eq_true hpos)]
      rfl
    case isFalse hzero =>
      rw [if_neg (by simpa using hzero)]
      rfl
  case h_4 pieces hshape =>
    simp only [JsNumber.ofDigits, JsNumber.inRange?_ofNat hmax, Option.map_map]
    rfl

theorem fieldsOf_parseCronField (tokens : List (List Char)) : fieldsOf parseCronField tokens =
    (fieldsOf cronField? tokens).map (CronFields.map JsNumber.ofNat) := by
  match tokens with
  | [minute, hour, dayOfMonth, month, dayOfWeek] =>
      simp only [fieldsOf, parseCronField_eq (show 59 < 2 ^ 53 by decide),
        parseCronField_eq (show 23 < 2 ^ 53 by decide),
        parseCronField_eq (show 31 < 2 ^ 53 by decide),
        parseCronField_eq (show 12 < 2 ^ 53 by decide),
        parseCronField_eq (show 6 < 2 ^ 53 by decide)]
      cases cronField? minute 0 59 with
      | none => rfl
      | some minute =>
        cases cronField? hour 0 23 with
        | none => rfl
        | some hour =>
          cases cronField? dayOfMonth 1 31 with
          | none => rfl
          | some dayOfMonth =>
            cases cronField? month 1 12 with
            | none => rfl
            | some month =>
              cases cronField? dayOfWeek 0 6 with
              | none => rfl
              | some dayOfWeek => rfl
  | [] => rfl
  | [_] => rfl
  | [_, _] => rfl
  | [_, _, _] => rfl
  | [_, _, _, _] => rfl
  | _ :: _ :: _ :: _ :: _ :: _ :: _ => rfl

/-- A field that is read. -/
def CronField.InBounds (minimum maximum : Nat) : CronField Nat → Prop
  | .any => True
  | .step n => 1 ≤ n
  | .list values => values ≠ [] ∧ ∀ value ∈ values, minimum ≤ value ∧ value ≤ maximum

theorem mapM_inBounds (p : Nat → Prop) [DecidablePred p] (number : List Char → Nat) :
    ∀ {pieces : List (List Char)} {values : List Nat},
    (pieces.mapM fun piece => if p (number piece) then some (number piece) else none) =
      some values → values.length = pieces.length ∧ ∀ value ∈ values, p value := by
  intro pieces
  induction pieces with
  | nil =>
      rintro values ⟨⟩
      exact ⟨rfl, fun _ h => by cases h⟩
  | cons piece pieces ih =>
      intro values h
      rw [List.mapM_cons] at h
      obtain ⟨value, hvalue, hrest⟩ := Option.bind_eq_some_iff.mp h
      obtain ⟨rest, hmap, hdone⟩ := Option.bind_eq_some_iff.mp hrest
      cases hdone
      obtain ⟨hlength, hall⟩ := ih hmap
      refine ⟨by rw [List.length_cons, List.length_cons, hlength], ?_⟩
      intro v hv
      rcases List.mem_cons.mp hv with rfl | hlater
      · split at hvalue
        case isTrue hp =>
          cases hvalue
          exact hp
        case isFalse => cases hvalue
      · exact hall v hlater

theorem cronField?_inBounds {field : CronField Nat}
    (h : cronField? token minimum maximum = some field) : field.InBounds minimum maximum := by
  simp only [cronField?] at h
  split at h
  case h_1 => cases h
  case h_2 =>
    cases h
    trivial
  case h_3 =>
    split at h
    case isTrue hpos =>
      cases h
      exact hpos
    case isFalse => cases h
  case h_4 pieces hshape =>
    obtain ⟨values, hvalues, rfl⟩ := Option.map_eq_some_iff.mp h
    obtain ⟨hlength, hall⟩ := mapM_inBounds (fun n => minimum ≤ n ∧ n ≤ maximum)
      (fun piece => Nat.ofDigitChars 10 piece 0) hvalues
    refine ⟨?_, hall⟩
    rintro rfl
    have hpieces : pieces ≠ [] := by
      simp only [shape?] at hshape
      repeat' split at hshape
      all_goals cases hshape
      exact List.splitOn_ne_nil _ _
    exact hpieces (List.length_eq_zero_iff.mp hlength.symm)

theorem fieldsOf_eq_some {parse : List Char → Nat → Nat → Option (CronField α)}
    {fields : CronFields α} (h : fieldsOf parse tokens = some fields) :
    ∃ minute hour dayOfMonth month dayOfWeek,
      tokens = [minute, hour, dayOfMonth, month, dayOfWeek] ∧
      parse minute 0 59 = some fields.minute ∧ parse hour 0 23 = some fields.hour ∧
      parse dayOfMonth 1 31 = some fields.dayOfMonth ∧ parse month 1 12 = some fields.month ∧
      parse dayOfWeek 0 6 = some fields.dayOfWeek := by
  simp only [fieldsOf] at h
  split at h
  case h_1 minute hour dayOfMonth month dayOfWeek =>
    obtain ⟨_, hminute, h⟩ := Option.bind_eq_some_iff.mp h
    obtain ⟨_, hhour, h⟩ := Option.bind_eq_some_iff.mp h
    obtain ⟨_, hday, h⟩ := Option.bind_eq_some_iff.mp h
    obtain ⟨_, hmonth, h⟩ := Option.bind_eq_some_iff.mp h
    obtain ⟨_, hweekday, h⟩ := Option.bind_eq_some_iff.mp h
    cases h
    exact ⟨minute, hour, dayOfMonth, month, dayOfWeek, rfl, hminute, hhour, hday, hmonth, hweekday⟩
  case h_2 => cases h

structure CronFields.InBounds (fields : CronFields Nat) : Prop where
  minute : fields.minute.InBounds 0 59
  hour : fields.hour.InBounds 0 23
  dayOfMonth : fields.dayOfMonth.InBounds 1 31
  month : fields.month.InBounds 1 12
  dayOfWeek : fields.dayOfWeek.InBounds 0 6

theorem fieldsOf_inBounds (h : fieldsOf cronField? tokens = some fields) : fields.InBounds := by
  obtain ⟨_, _, _, _, _, -, hminute, hhour, hday, hmonth, hweekday⟩ := fieldsOf_eq_some h
  exact ⟨cronField?_inBounds hminute, cronField?_inBounds hhour, cronField?_inBounds hday,
    cronField?_inBounds hmonth, cronField?_inBounds hweekday⟩

/-! ## Blanks -/

/-- The characters of the fields. -/
def IsFieldChar (c : Char) : Prop := c.isDigit = true ∨ c ∈ ['*', '/', ',']

instance (c : Char) : Decidable (IsFieldChar c) := inferInstanceAs (Decidable (_ ∨ _))

theorem isNumber_chars (h : isNumber token = true) : ∀ c ∈ token, c.isDigit = true := by
  simp only [isNumber, Bool.and_eq_true] at h
  exact List.all_eq_true.mp h.2

theorem shape?_chars {shape : Shape} (h : shape? token = some shape) :
    ∀ c ∈ token, IsFieldChar c := by
  simp only [shape?] at h
  split at h
  case isTrue hany =>
    rintro c hc
    rw [hany] at hc
    exact .inr (List.mem_of_mem_take (i := 1) hc)
  case isFalse =>
    split at h
    case isTrue hstep =>
      intro c hc
      rw [← List.take_append_drop 2 token, hstep.1, List.mem_append] at hc
      rcases hc with hhead | hdigits
      · exact .inr (List.mem_of_mem_take (i := 2) hhead)
      · exact .inl (isNumber_chars hstep.2 c hdigits)
    case isFalse =>
      split at h
      case isTrue hlist =>
        intro c hc
        rcases eq_or_ne c ',' with rfl | hne
        · exact .inr (by decide)
        · have hword : ∃ piece ∈ words (· == ',') token, c ∈ piece :=
            Words.exists_word hc (by simpa using hne)
          obtain ⟨piece, hpiece, hmem⟩ := hword
          have hnumber := List.all_eq_true.mp hlist piece (List.mem_of_mem_filter hpiece)
          exact .inl (isNumber_chars hnumber c hmem)
      case isFalse => cases h

theorem cronField?_chars {field : CronField Nat}
    (h : cronField? token minimum maximum = some field) : ∀ c ∈ token, IsFieldChar c := by
  simp only [cronField?] at h
  split at h
  case h_1 => cases h
  case h_2 hshape => exact shape?_chars hshape
  case h_3 hshape => exact shape?_chars hshape
  case h_4 hshape => exact shape?_chars hshape

theorem fieldsOf_chars (h : fieldsOf cronField? tokens = some fields) :
    ∀ token ∈ tokens, ∀ c ∈ token, IsFieldChar c := by
  obtain ⟨minute, hour, dayOfMonth, month, dayOfWeek, rfl, hminute, hhour, hday, hmonth,
    hweekday⟩ := fieldsOf_eq_some h
  simp only [List.forall_mem_cons, List.not_mem_nil, false_imp_iff, implies_true, and_true]
  exact ⟨cronField?_chars hminute, cronField?_chars hhour, cronField?_chars hday,
    cronField?_chars hmonth, cronField?_chars hweekday⟩

theorem isDigit_mem {c : Char} (h : c.isDigit = true) :
    c ∈ ['0', '1', '2', '3', '4', '5', '6', '7', '8', '9'] := by
  simp only [Char.isDigit, Bool.and_eq_true, decide_eq_true_eq, UInt32.le_iff_toNat_le] at h
  have hlow : 48 ≤ c.toNat := h.1
  have hhigh : c.toNat ≤ 57 := h.2
  have hcases : c.toNat = 48 ∨ c.toNat = 49 ∨ c.toNat = 50 ∨ c.toNat = 51 ∨ c.toNat = 52 ∨
      c.toNat = 53 ∨ c.toNat = 54 ∨ c.toNat = 55 ∨ c.toNat = 56 ∨ c.toNat = 57 := by omega
  rw [← Char.ofNat_toNat c]
  rcases hcases with h | h | h | h | h | h | h | h | h | h <;> rw [h] <;> decide

theorem isSpace_of_isFieldChar {c : Char} (h : IsFieldChar c) : PyStr.isSpace c = false := by
  have hall : ∀ c ∈ ['0', '1', '2', '3', '4', '5', '6', '7', '8', '9', '*', '/', ','],
      PyStr.isSpace c = false := List.all_iff_forall_prop.mp (by decide)
  refine hall c ?_
  rcases h with hdigit | hsign
  · exact List.mem_append_left ['*', '/', ','] (isDigit_mem hdigit)
  · exact List.mem_append_right ['0', '1', '2', '3', '4', '5', '6', '7', '8', '9'] hsign

/-- A blank of the browser is one of the scheduler but for the byte order mark. -/
theorem isSpace_of_isJsBlank {c : Char} (h : isJsBlank c = true) (hmark : c ≠ '\ufeff') :
    PyStr.isSpace c = true := by
  have hall : ∀ c ∈ ['\t', '\n', '\x0b', '\x0c', '\r', ' ', '\u00a0', '\u1680', '\u2028', '\u2029',
      '\u202f', '\u205f', '\u3000', '\ufeff'], c ≠ '\ufeff' → PyStr.isSpace c = true :=
    List.all_iff_forall_prop.mp (by decide)
  simp only [isJsBlank, Bool.or_eq_true, decide_eq_true_eq] at h
  rcases h with hlist | hrange
  · exact hall c hlist hmark
  · rw [PyStr.isSpace, hrange, Bool.or_true]

theorem not_isFieldChar_mark : ¬ IsFieldChar '\ufeff' := by decide

/-- The scheduler sees the tokens of the hint. -/
theorem cronFields_of_tokens (h : fieldsOf cronField? (jsTokens expression) = some fields)
    (hmark : '\ufeff' ∉ expression.toList) : cronFields expression = some fields := by
  have htokens : jsTokens expression = words isJsBlank expression.toList := by
    obtain ⟨_, _, _, _, _, htokens, -⟩ := fieldsOf_eq_some h
    simp only [jsTokens] at htokens ⊢
    split at htokens
    case isTrue => cases htokens
    case isFalse hne => rw [if_neg hne]
  rw [htokens] at h
  have hblanks : ∀ c ∈ expression.toList, PyStr.isSpace c = isJsBlank c := by
    intro c hc
    cases hblank : isJsBlank c with
    | true => exact isSpace_of_isJsBlank hblank fun heq => hmark (heq ▸ hc)
    | false =>
        obtain ⟨token, htoken, hmem⟩ := Words.exists_word hc hblank
        exact isSpace_of_isFieldChar (fieldsOf_chars h token htoken c hmem)
  rw [cronFields, Words.words_congr hblanks]
  exact h

theorem mark_not_mem (h : cronFields expression = some fields) :
    '\ufeff' ∉ expression.toList := by
  intro hmem
  obtain ⟨token, htoken, hmark⟩ := Words.exists_word hmem
    (show PyStr.isSpace '\ufeff' = false by decide)
  exact not_isFieldChar_mark (fieldsOf_chars h token htoken _ hmark)

/-! ## What a sentence names -/

theorem singleValue_eq_some {field : CronField α} :
    field.singleValue = some value ↔ field = .list [value] := by
  cases field with
  | any => simp [CronField.singleValue]
  | step n => simp [CronField.singleValue]
  | list values =>
      match values with
      | [] => simp [CronField.singleValue]
      | [_] => simp [CronField.singleValue]
      | _ :: _ :: _ => simp [CronField.singleValue]

theorem map_eq_any {field : CronField α} : field.map f = .any ↔ field = .any := by
  cases field <;> simp [CronField.map]

theorem map_eq_step {field : CronField α} {b : β} :
    field.map f = .step b ↔ ∃ a, field = .step a ∧ b = f a := by
  cases field <;> simp [CronField.map, eq_comm]

theorem map_eq_list {field : CronField α} {values : List Nat} :
    field.map f = .list values ↔ field = .list values := by
  cases field <;> simp [CronField.map]

theorem onlyTimeAny_map {fields : CronFields α} :
    (fields.map f).OnlyTimeAny ↔ fields.OnlyTimeAny := by
  simp only [CronFields.OnlyTimeAny, CronFields.map, map_eq_any]

theorem describeDay_map (fields : CronFields α) (hour minute : Nat) :
    describeDay (fields.map f) hour minute = describeDay fields hour minute := by
  obtain ⟨_, _, dayOfMonth, month, dayOfWeek⟩ := fields
  cases dayOfWeek <;> cases dayOfMonth <;> cases month <;> rfl

theorem describeTime_eq_some [DecidableEq α] {fields : CronFields α} :
    describeTime fields = some hint ↔ ∃ minute, fields.minute = .list [minute] ∧
      ((∀ hour, fields.hour ≠ .list [hour]) ∧ fields.OnlyTimeAny ∧ hint = .hourly minute ∨
        ∃ hour, fields.hour = .list [hour] ∧ hint = describeDay fields hour minute) := by
  simp only [← singleValue_eq_some, describeTime, ne_eq]
  cases fields.minute.singleValue with
  | none => simp
  | some minute =>
      cases fields.hour.singleValue with
      | none => simp [eq_comm]
      | some hour => simp [eq_comm]

/-- The sentences, by the fields that they are of. -/
theorem describe_eq_some {fields : CronFields JsNumber} : describe fields = some hint ↔
    (∃ step, fields.minute = .step step ∧ fields.hour = .any ∧ fields.OnlyTimeAny ∧
        hint = .everyMinutes step) ∨
      ∃ minute, fields.minute = .list [minute] ∧
        ((∀ hour, fields.hour ≠ .list [hour]) ∧ fields.OnlyTimeAny ∧ hint = .hourly minute ∨
          ∃ hour, fields.hour = .list [hour] ∧ hint = describeDay fields hour minute) := by
  rw [← describeTime_eq_some, describe]
  cases hminute : fields.minute with
  | any => simp
  | list values => simp
  | step step =>
      have htime : describeTime fields = none := by
        rw [describeTime, hminute]
        rfl
      simp [htime, eq_comm, and_assoc]

theorem describe_map_eq_some : describe (fields.map JsNumber.ofNat) = some hint ↔
    (∃ n, fields.minute = .step n ∧ fields.hour = .any ∧ fields.OnlyTimeAny ∧
        hint = .everyMinutes (.ofNat n)) ∨
      ∃ minute, fields.minute = .list [minute] ∧
        ((∀ hour, fields.hour ≠ .list [hour]) ∧ fields.OnlyTimeAny ∧ hint = .hourly minute ∨
          ∃ hour, fields.hour = .list [hour] ∧ hint = describeDay fields hour minute) := by
  rw [describe_eq_some]
  simp only [onlyTimeAny_map, describeDay_map]
  simp only [CronFields.map, map_eq_any, map_eq_step, map_eq_list, ne_eq]
  refine or_congr ⟨?_, ?_⟩ Iff.rfl
  · rintro ⟨_, ⟨n, hstep, rfl⟩, hrest⟩
    exact ⟨n, hstep, hrest⟩
  · rintro ⟨n, hstep, hrest⟩
    exact ⟨_, ⟨n, hstep, rfl⟩, hrest⟩

theorem exists_hint : (∃ hint, describe (fields.map JsNumber.ofNat) = some hint) ↔
    fields.Described := by
  simp only [describe_map_eq_some, CronFields.Described]
  constructor
  · rintro ⟨_, ⟨n, hstep, hhour, hday, -⟩ | ⟨minute, hminute, ⟨-, hday, -⟩ | ⟨hour, hhour, -⟩⟩⟩
    · exact .inl ⟨⟨n, hstep⟩, hhour, hday⟩
    · exact .inr ⟨minute, hminute, .inl hday⟩
    · exact .inr ⟨minute, hminute, .inr ⟨hour, hhour⟩⟩
  · rintro (⟨⟨n, hstep⟩, hhour, hday⟩ | ⟨minute, hminute, hrest⟩)
    · exact ⟨_, .inl ⟨n, hstep, hhour, hday, rfl⟩⟩
    · by_cases hsingle : ∃ hour, fields.hour = .list [hour]
      · obtain ⟨hour, hhour⟩ := hsingle
        exact ⟨_, .inr ⟨minute, hminute, .inr ⟨hour, hhour, rfl⟩⟩⟩
      · exact ⟨_, .inr ⟨minute, hminute, .inl ⟨not_exists.mp hsingle,
          hrest.resolve_right hsingle, rfl⟩⟩⟩

/-- The fields that the sentence shows match the minute. -/
structure CronFields.Tells (fields : CronFields Nat) (t : LocalMinute) : Prop where
  minute : fields.minute.Matches 0 t.minute
  hour : ∀ hour, fields.hour = .list [hour] → t.hour = hour
  dayOfMonth : ¬ fields.dayOfWeek.isList → fields.dayOfMonth.isList →
    fields.dayOfMonth.Matches 1 t.day
  month : ¬ fields.dayOfWeek.isList → fields.month.isList → fields.month.Matches 1 t.month
  dayOfWeek : fields.dayOfWeek.isList → fields.dayOfWeek.Matches 0 t.weekday

variable {t : LocalMinute}

theorem tells_iff : fields.Tells t ↔ fields.minute.Matches 0 t.minute ∧
    (∀ hour, fields.hour = .list [hour] → t.hour = hour) ∧
    (¬ fields.dayOfWeek.isList → fields.dayOfMonth.isList → fields.dayOfMonth.Matches 1 t.day) ∧
    (¬ fields.dayOfWeek.isList → fields.month.isList → fields.month.Matches 1 t.month) ∧
    (fields.dayOfWeek.isList → fields.dayOfWeek.Matches 0 t.weekday) := by
  constructor
  · rintro ⟨hminute, hhour, hday, hmonth, hweekday⟩
    exact ⟨hminute, hhour, hday, hmonth, hweekday⟩
  · rintro ⟨hminute, hhour, hday, hmonth, hweekday⟩
    exact ⟨hminute, hhour, hday, hmonth, hweekday⟩

/-- The day of a sentence is its shown fields, whichever they are. -/
theorem describes_describeDay {hour minute : Nat} (hminute : fields.minute = .list [minute])
    (hhour : fields.hour = .list [hour]) :
    (describeDay fields hour minute).Describes t ↔ fields.Tells t := by
  rw [tells_iff, hminute, hhour]
  cases hweekday : fields.dayOfWeek <;> cases hday : fields.dayOfMonth <;>
    cases hmonth : fields.month <;>
      simp [describeDay, hweekday, hday, hmonth, CronHint.Describes, CronField.Matches,
        CronField.isList] <;> tauto

theorem describes_iff_tells (h : describe (fields.map JsNumber.ofNat) = some hint) :
    hint.Describes t ↔ fields.Tells t := by
  obtain ⟨n, hstep, hhour, ⟨hday, hmonth, hweekday⟩, rfl⟩ | ⟨minute, hminute,
    ⟨hhour, ⟨hday, hmonth, hweekday⟩, rfl⟩ | ⟨hour, hhour, rfl⟩⟩ := describe_map_eq_some.mp h
  · rw [tells_iff, hstep, hhour, hday, hmonth, hweekday]
    have hsmall : t.minute < 2 ^ 53 := Nat.lt_trans t.minute_lt (by decide)
    simp [CronHint.Describes, CronField.Matches, CronField.isList, JsNumber.divides_ofNat hsmall]
  · rw [tells_iff, hminute, hday, hmonth, hweekday]
    simp [CronHint.Describes, CronField.Matches, CronField.isList, hhour]
  · exact describes_describeDay hminute hhour

/-! ## What a sentence leaves out -/

theorem exists_minute {month day weekday hour minute : Nat} (hmonth : 1 ≤ month ∧ month ≤ 12)
    (hday : 1 ≤ day) (hdays : day ≤ Calendar.daysInMonth true month) (hweekday : weekday < 7)
    (hhour : hour < 24) (hminute : minute < 60) :
    ∃ t : LocalMinute, t.month = month ∧ t.day = day ∧ t.weekday = weekday ∧ t.hour = hour ∧
      t.minute = minute := by
  obtain ⟨date, hmonth, hday, hweekday⟩ := Calendar.exists_date hmonth hday hdays hweekday
  exact ⟨⟨date, hour, minute, hhour, hminute⟩, hmonth, hday, hweekday, rfl, rfl⟩

/-- A field that is read matches something. -/
theorem exists_matches {field : CronField Nat} (h : field.InBounds minimum maximum)
    (hle : minimum ≤ maximum) : ∃ value, minimum ≤ value ∧ value ≤ maximum ∧
      field.Matches minimum value := by
  cases field with
  | any => exact ⟨minimum, Nat.le_refl _, hle, trivial⟩
  | step n =>
      refine ⟨minimum, Nat.le_refl _, hle, ?_⟩
      show n ∣ minimum - minimum
      rw [Nat.sub_self]
      exact Nat.dvd_zero n
  | list values =>
      obtain ⟨hne, hall⟩ := h
      obtain ⟨value, hvalue⟩ := List.exists_mem_of_ne_nil values hne
      exact ⟨value, (hall value hvalue).1, (hall value hvalue).2, hvalue⟩

/-- A step that divides two coprime distances is 1. -/
theorem full_of_coprime {field : CronField Nat} {a b : Nat} (hlist : ¬ field.isList)
    (hcoprime : Nat.gcd (a - minimum) (b - minimum) = 1) (ha : field.Matches minimum a)
    (hb : field.Matches minimum b) : field.Full minimum maximum := by
  cases field with
  | any => exact fun _ _ _ => trivial
  | step n =>
      have hone : n ∣ Nat.gcd (a - minimum) (b - minimum) := Nat.dvd_gcd ha hb
      rw [hcoprime, Nat.dvd_one] at hone
      intro value _ _
      show n ∣ value - minimum
      rw [hone]
      exact Nat.one_dvd _
  | list values => exact absurd rfl hlist

/-- The sentence has whatever minute its shown fields match. -/
theorem fires_at (hbounds : fields.InBounds) (h : ∀ t, fields.Tells t → fields.Fires t)
    {month day weekday : Nat} (hmonth : 1 ≤ month ∧ month ≤ 12) (hday : 1 ≤ day)
    (hdays : day ≤ Calendar.daysInMonth true month) (hweekday : weekday < 7)
    (hshownDay : ¬ fields.dayOfWeek.isList → fields.dayOfMonth.isList →
      fields.dayOfMonth.Matches 1 day)
    (hshownMonth : ¬ fields.dayOfWeek.isList → fields.month.isList → fields.month.Matches 1 month)
    (hshownWeekday : fields.dayOfWeek.isList → fields.dayOfWeek.Matches 0 weekday) :
    fields.dayOfMonth.Matches 1 day ∧ fields.month.Matches 1 month ∧
      fields.dayOfWeek.Matches 0 weekday := by
  obtain ⟨minute, -, hminute, hminuteMatches⟩ := exists_matches hbounds.minute (by decide)
  obtain ⟨hour, -, hhour, hhourMatches⟩ := exists_matches hbounds.hour (by decide)
  obtain ⟨t, rfl, rfl, rfl, rfl, rfl⟩ := exists_minute hmonth hday hdays hweekday
    (Nat.lt_succ_of_le hhour) (Nat.lt_succ_of_le hminute)
  have htells : fields.Tells t := by
    refine ⟨hminuteMatches, fun hour hsingle => ?_, hshownDay, hshownMonth, hshownWeekday⟩
    rw [hsingle] at hhourMatches
    exact List.mem_singleton.mp hhourMatches
  exact ⟨(h t htells).dayOfMonth, (h t htells).month, (h t htells).dayOfWeek⟩

theorem hour_full (hbounds : fields.InBounds) (hdescribed : fields.Described)
    (h : ∀ t, fields.Tells t → fields.Fires t) (hsingle : fields.hour.singleValue = none) :
    fields.hour.Full 0 23 := by
  have hnone : ∀ hour, fields.hour ≠ .list [hour] := by
    intro hour hhour
    rw [singleValue_eq_some.mpr hhour] at hsingle
    cases hsingle
  have hday : fields.OnlyTimeAny := by
    obtain ⟨-, -, hday⟩ | ⟨_, -, hday | ⟨hour, hhour⟩⟩ := hdescribed
    · exact hday
    · exact hday
    · exact absurd hhour (hnone hour)
  obtain ⟨hdayOfMonth, hmonth, hdayOfWeek⟩ := hday
  obtain ⟨minute, -, hminute, hmatches⟩ := exists_matches hbounds.minute (by decide)
  intro hour hhour _
  obtain ⟨t, -, -, -, rfl, rfl⟩ := exists_minute (show 1 ≤ 1 ∧ 1 ≤ 12 by decide)
    (Nat.le_refl 1) (by decide) (show 0 < 7 by decide) (Nat.lt_succ_of_le hhour)
    (Nat.lt_succ_of_le hminute)
  have htells : fields.Tells t := by
    rw [tells_iff, hdayOfMonth, hmonth, hdayOfWeek]
    refine ⟨hmatches, fun hour hhour => absurd hhour (hnone hour), ?_, ?_, ?_⟩
    · exact fun _ hlist => absurd hlist (by decide)
    · exact fun _ hlist => absurd hlist (by decide)
    · exact fun hlist => absurd hlist (by decide)
  exact (h t htells).hour

/-- A list of weekdays is all that is shown of the day. -/
theorem days_full_of_weekdays (hbounds : fields.InBounds)
    (h : ∀ t, fields.Tells t → fields.Fires t) (hlist : fields.dayOfWeek.isList) :
    fields.dayOfMonth.Full 1 31 ∧ fields.month.Full 1 12 := by
  obtain ⟨weekday, -, hle, hweekday⟩ := exists_matches hbounds.dayOfWeek (by decide)
  have hat : ∀ month day, 1 ≤ month ∧ month ≤ 12 → 1 ≤ day →
      day ≤ Calendar.daysInMonth true month →
        fields.dayOfMonth.Matches 1 day ∧ fields.month.Matches 1 month := by
    intro month day hmonth hday hdays
    obtain ⟨hdayMatches, hmonthMatches, -⟩ := fires_at hbounds h hmonth hday hdays
      (Nat.lt_succ_of_le hle) (fun hnot => absurd hlist hnot) (fun hnot => absurd hlist hnot)
      fun _ => hweekday
    exact ⟨hdayMatches, hmonthMatches⟩
  constructor
  · intro day hle hpos
    exact (hat 1 day ⟨by decide, by decide⟩ hpos hle).1
  · intro month hle hpos
    have hfirst : 1 ≤ Calendar.daysInMonth true month :=
      Nat.le_trans (by decide) Calendar.le_daysInMonth
    exact (hat month 1 ⟨hpos, hle⟩ (Nat.le_refl 1) hfirst).2

/-- The shown fields of a sentence without weekdays, for every weekday. -/
theorem fires_on (hbounds : fields.InBounds) (h : ∀ t, fields.Tells t → fields.Fires t)
    (hlist : ¬ fields.dayOfWeek.isList) {month day : Nat} (hmonth : 1 ≤ month ∧ month ≤ 12)
    (hday : 1 ≤ day) (hdays : day ≤ Calendar.daysInMonth true month)
    (hshownDay : fields.dayOfMonth.isList → fields.dayOfMonth.Matches 1 day)
    (hshownMonth : fields.month.isList → fields.month.Matches 1 month) :
    fields.dayOfMonth.Matches 1 day ∧ fields.month.Matches 1 month ∧
      fields.dayOfWeek.Full 0 6 := by
  have hat : ∀ weekday < 7, fields.dayOfMonth.Matches 1 day ∧ fields.month.Matches 1 month ∧
      fields.dayOfWeek.Matches 0 weekday := fun weekday hweekday =>
    fires_at hbounds h hmonth hday hdays hweekday (fun _ => hshownDay) (fun _ => hshownMonth)
      fun hweekdays => absurd hweekdays hlist
  refine ⟨(hat 0 (by decide)).1, (hat 0 (by decide)).2.1, fun weekday hle _ => ?_⟩
  exact (hat weekday (Nat.lt_succ_of_le hle)).2.2

theorem isList_iff {field : CronField α} : field.isList ↔ ∃ values, field = .list values := by
  cases field <;> simp [CronField.isList]

/-- Days and months are shown: a date that has both may have any weekday. -/
theorem dates_full (hbounds : fields.InBounds) (h : ∀ t, fields.Tells t → fields.Fires t)
    (hlist : ¬ fields.dayOfWeek.isList) (hdays : fields.dayOfMonth.isList)
    (hmonths : fields.month.isList) : fields.dayOfWeek.Full 0 6 ∨ fields.Never := by
  obtain ⟨days, hdays⟩ := isList_iff.mp hdays
  obtain ⟨months, hmonths⟩ := isList_iff.mp hmonths
  by_cases hdate : ∃ day ∈ days, ∃ month ∈ months, day ≤ Calendar.daysInMonth true month
  · obtain ⟨day, hday, month, hmonth, hle⟩ := hdate
    have hdayBounds : 1 ≤ day := by
      have hin := hbounds.dayOfMonth
      rw [hdays] at hin
      exact (hin.2 day hday).1
    have hmonthBounds : 1 ≤ month ∧ month ≤ 12 := by
      have hin := hbounds.month
      rw [hmonths] at hin
      exact hin.2 month hmonth
    refine .inl (fires_on hbounds h hlist hmonthBounds hdayBounds hle ?_ ?_).2.2
    · rw [hdays]
      exact fun _ => hday
    · rw [hmonths]
      exact fun _ => hmonth
  · refine .inr ⟨hlist, days, months, hdays, hmonths, fun day hday month hmonth => ?_⟩
    by_contra hle
    exact hdate ⟨day, hday, month, hmonth, Nat.not_lt.mp hle⟩

/-- Days are shown, and no months. -/
theorem months_full (hbounds : fields.InBounds) (h : ∀ t, fields.Tells t → fields.Fires t)
    (hlist : ¬ fields.dayOfWeek.isList) (hmonths : ¬ fields.month.isList) :
    fields.month.Full 1 12 ∧ fields.dayOfWeek.Full 0 6 := by
  obtain ⟨day, hpos, hle, hday⟩ := exists_matches hbounds.dayOfMonth (by decide)
  have hon : ∀ month, 1 ≤ month ∧ month ≤ 12 → Calendar.daysInMonth true month = 31 →
      fields.month.Matches 1 month ∧ fields.dayOfWeek.Full 0 6 := fun month hmonth hlong =>
    (fires_on hbounds h hlist hmonth hpos (hlong ▸ hle) (fun _ => hday)
      fun hshown => absurd hshown hmonths).2
  -- March and August have 31 days, and are two and seven months after January
  obtain ⟨hmarch, hweekdays⟩ := hon 3 ⟨by decide, by decide⟩ rfl
  obtain ⟨haugust, -⟩ := hon 8 ⟨by decide, by decide⟩ rfl
  exact ⟨full_of_coprime hmonths (show Nat.gcd (3 - 1) (8 - 1) = 1 by decide) hmarch haugust,
    hweekdays⟩

/-- No days are shown. -/
theorem days_full (hbounds : fields.InBounds) (h : ∀ t, fields.Tells t → fields.Fires t)
    (hlist : ¬ fields.dayOfWeek.isList) (hdays : ¬ fields.dayOfMonth.isList) :
    fields.dayOfMonth.Full 1 31 ∧ fields.dayOfWeek.Full 0 6 := by
  obtain ⟨month, hpos, hle, hmonth⟩ := exists_matches hbounds.month (by decide)
  have hsecond : 2 ≤ Calendar.daysInMonth true month :=
    Nat.le_trans (by decide) Calendar.le_daysInMonth
  obtain ⟨hday, -, hweekdays⟩ := fires_on hbounds h hlist ⟨hpos, hle⟩ (by decide) hsecond
    (fun hshown => absurd hshown hdays) fun _ => hmonth
  exact ⟨full_of_coprime hdays (show Nat.gcd (2 - 1) (2 - 1) = 1 by decide) hday hday, hweekdays⟩

/-- **What the sentence leaves out.** -/
theorem shown_or_never (hbounds : fields.InBounds) (hdescribed : fields.Described)
    (h : ∀ t, fields.Tells t → fields.Fires t) : fields.Shown ∨ fields.Never := by
  have hhour := hour_full hbounds hdescribed h
  by_cases hlist : fields.dayOfWeek.isList
  · obtain ⟨hday, hmonth⟩ := days_full_of_weekdays hbounds h hlist
    exact .inl ⟨hhour, fun _ => hday, fun _ => hmonth, fun hnot => absurd hlist hnot⟩
  by_cases hdays : fields.dayOfMonth.isList
  · have hday : fields.dayOfWeek.isList ∨ ¬ fields.dayOfMonth.isList →
        fields.dayOfMonth.Full 1 31 := fun hhidden =>
      absurd hdays (hhidden.resolve_left hlist)
    by_cases hmonths : fields.month.isList
    · refine (dates_full hbounds h hlist hdays hmonths).imp_left fun hweekdays => ?_
      exact ⟨hhour, hday, fun hhidden => absurd hmonths (hhidden.resolve_left hlist),
        fun _ => hweekdays⟩
    · obtain ⟨hmonth, hweekdays⟩ := months_full hbounds h hlist hmonths
      exact .inl ⟨hhour, hday, fun _ => hmonth, fun _ => hweekdays⟩
  · obtain ⟨hday, hweekdays⟩ := days_full hbounds h hlist hdays
    refine .inl ⟨hhour, fun _ => hday, fun hhidden => ?_, fun _ => hweekdays⟩
    exact (months_full hbounds h hlist (hhidden.resolve_left hlist)).1

/-- **What the sentence shows.** -/
theorem fires_of_shown (hshown : fields.Shown ∨ fields.Never) {t : LocalMinute}
    (htells : fields.Tells t) : fields.Fires t := by
  obtain ⟨hminute, hhour, hday, hmonth, hweekday⟩ := htells
  rcases hshown with hshown | ⟨hlist, days, months, hdays, hmonths, hnever⟩
  · refine ⟨hminute, ?_, ?_, ?_, ?_⟩
    · cases hsingle : fields.hour.singleValue with
      | none => exact hshown.hour hsingle t.hour (Nat.le_of_lt_succ t.hour_lt) (Nat.zero_le _)
      | some hour =>
          rw [singleValue_eq_some] at hsingle
          rw [hsingle]
          exact List.mem_singleton.mpr (hhour hour hsingle)
    · by_cases hhidden : fields.dayOfWeek.isList ∨ ¬ fields.dayOfMonth.isList
      · exact hshown.dayOfMonth hhidden t.day t.day_le_31 t.day_pos
      · rw [not_or, not_not] at hhidden
        exact hday hhidden.1 hhidden.2
    · by_cases hhidden : fields.dayOfWeek.isList ∨ ¬ fields.month.isList
      · exact hshown.month hhidden t.month t.month_le t.month_pos
      · rw [not_or, not_not] at hhidden
        exact hmonth hhidden.1 hhidden.2
    · by_cases hlist : fields.dayOfWeek.isList
      · exact hweekday hlist
      · exact hshown.dayOfWeek hlist t.weekday (Nat.le_of_lt_succ t.weekday_lt) (Nat.zero_le _)
  · have hdayMem := hday hlist (isList_iff.mpr ⟨days, hdays⟩)
    have hmonthMem := hmonth hlist (isList_iff.mpr ⟨months, hmonths⟩)
    rw [hdays] at hdayMem
    rw [hmonths] at hmonthMem
    have hlong := Nat.le_trans t.day_le Calendar.daysInMonth_le
    exact absurd hlong (Nat.not_le.mpr (hnever t.day hdayMem t.month hmonthMem))

theorem tells_of_fires (h : fields.Fires t) : fields.Tells t := by
  refine ⟨h.minute, fun hour hhour => ?_, fun _ _ => h.dayOfMonth, fun _ _ => h.month,
    fun _ => h.dayOfWeek⟩
  have hmatches := h.hour
  rw [hhour] at hmatches
  exact List.mem_singleton.mp hmatches

theorem tells_iff_fires (hbounds : fields.InBounds) (hdescribed : fields.Described) :
    (∀ t, fields.Tells t ↔ fields.Fires t) ↔ fields.Shown ∨ fields.Never := by
  constructor
  · exact fun h => shown_or_never hbounds hdescribed fun t => (h t).mp
  · exact fun hshown t => ⟨fires_of_shown hshown, tells_of_fires⟩

theorem humanizeCron_eq_some : humanizeCron expression = some hint ↔
    ∃ fields, fieldsOf cronField? (jsTokens expression) = some fields ∧
      describe (fields.map JsNumber.ofNat) = some hint := by
  rw [humanizeCron, fieldsOf_parseCronField, Option.bind_map, Option.bind_eq_some_iff]
  rfl

end

/-- The hint of a cron expression names the minutes of the schedule exactly when the sentence leaves
out no field that restricts it, and the tokens of the browser are those of the scheduler. -/
theorem humanizeCron_iff (expression : String) : Faithful expression ↔ Tellable expression := by
  constructor
  · intro h fields hfields hdescribed
    obtain ⟨hint, hhint⟩ := exists_hint.mpr hdescribed
    obtain ⟨fields', hfields', hsame⟩ :=
      h hint (humanizeCron_eq_some.mpr ⟨fields, hfields, hhint⟩)
    have hmark := mark_not_mem hfields'
    cases hfields'.symm.trans (cronFields_of_tokens hfields hmark)
    refine ⟨hmark, (tells_iff_fires (fieldsOf_inBounds hfields) hdescribed).mp fun t => ?_⟩
    exact (describes_iff_tells hhint).symm.trans (hsame t)
  · intro h hint hhint
    obtain ⟨fields, hfields, hdescribe⟩ := humanizeCron_eq_some.mp hhint
    have hdescribed := exists_hint.mp ⟨hint, hdescribe⟩
    obtain ⟨hmark, hshown⟩ := h fields hfields hdescribed
    refine ⟨fields, cronFields_of_tokens hfields hmark, fun t => ?_⟩
    exact (describes_iff_tells hdescribe).trans
      ((tells_iff_fires (fieldsOf_inBounds hfields) hdescribed).mpr hshown t)

/-- One o'clock on the first of January -/
def oneOClock : LocalMinute where
  year := 2000
  month := 1
  day := 1
  year_pos := by decide
  month_pos := by decide
  month_le := by decide
  day_pos := by decide
  day_le := by decide
  hour := 1
  minute := 0
  hour_lt := by decide
  minute_lt := by decide

/-- Every two hours: the sentence says hourly. -/
theorem everyTwoHours_hourly :
    humanizeCron "0 */2 * * *" = some (.hourly 0) ∧ ¬ Faithful "0 */2 * * *" := by
  have hhint : humanizeCron "0 */2 * * *" = some (.hourly 0) := by decide +kernel
  have hfields : cronFields "0 */2 * * *" = some ⟨.list [0], .step 2, .any, .any, .any⟩ := by
    decide +kernel
  refine ⟨hhint, fun h => ?_⟩
  obtain ⟨fields, hsome, hsame⟩ := h _ hhint
  cases hfields.symm.trans hsome
  have hodd : (2 : Nat) ∣ 1 - 0 := ((hsame oneOClock).mp rfl).hour
  exact absurd hodd (by decide)

end EarlyWarning.Cron
