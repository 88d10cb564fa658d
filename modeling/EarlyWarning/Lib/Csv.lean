/-
# `Lib.Csv` — comma-separated records

The writer of Python's `csv` module with `QUOTE_MINIMAL` and `doublequote`, for any delimiter and
quote character: a field is quoted when it has the delimiter, a quote or a line break in it, and a
record of one empty field is written as a pair of quotes.  The reader is the state machine of the
same module, which reads on behind a closing quote and takes any line break for the end of a
record.

`read_write`: what is written is read back, for any records, with or without fields.
-/
import Mathlib.Data.List.Basic
import Mathlib.Data.List.Infix

namespace Lib.Csv

structure Dialect where
  delimiter : Char
  quotechar : Char
  delimiter_ne_quotechar : delimiter ≠ quotechar
  delimiter_ne_break : delimiter ≠ '\r' ∧ delimiter ≠ '\n'
  quotechar_ne_break : quotechar ≠ '\r' ∧ quotechar ≠ '\n'

/-- `csv.excel` -/
def excel : Dialect where
  delimiter := ','
  quotechar := '"'
  delimiter_ne_quotechar := by decide
  delimiter_ne_break := by decide
  quotechar_ne_break := by decide

abbrev Field := List Char

abbrev Record := List Field

variable (d : Dialect)

/-! ## The writer -/

/-- The characters that make a field be quoted. -/
def Dialect.special (c : Char) : Bool :=
  c == d.delimiter || c == d.quotechar || c == '\r' || c == '\n'

def escape (field : Field) : List Char :=
  field.flatMap fun c => if c = d.quotechar then [d.quotechar, d.quotechar] else [c]

def writeField (field : Field) : List Char :=
  if field.any d.special then [d.quotechar] ++ escape d field ++ [d.quotechar] else field

def writeFields : Record → List Char
  | [] => []
  | [field] => writeField d field
  | field :: fields => writeField d field ++ d.delimiter :: writeFields fields

/-- `writer.writerow` -/
def writeRow (record : Record) : List Char :=
  (if record = [[]] then [d.quotechar, d.quotechar] else writeFields d record) ++ ['\r', '\n']

def write (records : List Record) : List Char := records.flatMap (writeRow d)

/-! ## The reader -/

inductive Mode
  | startRecord
  | startField
  | inField
  | inQuotedField
  | quoteInQuotedField
  /-- a record has ended with a carriage return -/
  | eatCrnl
deriving DecidableEq

structure Reader where
  mode : Mode := .startRecord
  field : Field := []
  fields : Record := []
  records : List Record := []
deriving DecidableEq

def Reader.add (r : Reader) (c : Char) (mode : Mode) : Reader :=
  { r with field := r.field ++ [c], mode }

/-- `parse_save_field` -/
def Reader.saveField (r : Reader) (mode : Mode) : Reader :=
  { r with fields := r.fields ++ [r.field], field := [], mode }

def Reader.endRecord (r : Reader) (c : Char) : Reader :=
  { r with
    records := r.records ++ [r.fields], fields := []
    mode := if c = '\r' then .eatCrnl else .startRecord }

def isBreak (c : Char) : Bool := c == '\r' || c == '\n'

/-- A character behind which a field can begin. -/
def Reader.startField (r : Reader) (c : Char) : Reader :=
  if isBreak c then (r.saveField .startField).endRecord c
  else if c = d.quotechar then { r with mode := .inQuotedField }
  else if c = d.delimiter then r.saveField .startField
  else r.add c .inField

def Reader.startRecord (r : Reader) (c : Char) : Reader :=
  if isBreak c then r.endRecord c else r.startField d c

/-- `parse_process_char` -/
def Reader.feed (r : Reader) (c : Char) : Reader :=
  match r.mode with
  | .startRecord => r.startRecord d c
  | .startField => r.startField d c
  | .inField =>
      if isBreak c then (r.saveField .startField).endRecord c
      else if c = d.delimiter then r.saveField .startField
      else r.add c .inField
  | .inQuotedField =>
      if c = d.quotechar then { r with mode := .quoteInQuotedField } else r.add c .inQuotedField
  | .quoteInQuotedField =>
      if c = d.quotechar then r.add c .inQuotedField
      else if c = d.delimiter then r.saveField .startField
      else if isBreak c then (r.saveField .startField).endRecord c
      else r.add c .inField
  | .eatCrnl => if c = '\n' then { r with mode := .startRecord } else r.startRecord d c

/-- The records at the end of the text; the last one may lack its line break. -/
def Reader.finish (r : Reader) : List Record :=
  match r.mode with
  | .startRecord | .eatCrnl => r.records
  | _ => r.records ++ [r.fields ++ [r.field]]

def read (text : List Char) : List Record := (text.foldl (Reader.feed d) {}).finish

example : read excel (write excel [["a,".toList, []], [[]], [], ["\"\n".toList]]) =
    [["a,".toList, []], [[]], [], ["\"\n".toList]] := by decide

variable {d : Dialect} {r s : Reader} {field : Field} {fields : Record}

/-! ## One field -/

/-- What makes a field be quoted is a delimiter, a quote or a line break. -/
theorem not_special {c : Char} (h : d.special c = false) :
    c ≠ d.delimiter ∧ c ≠ d.quotechar ∧ isBreak c = false := by
  simp only [Dialect.special, Bool.or_eq_false_iff, beq_eq_false_iff_ne] at h
  obtain ⟨⟨⟨hdelimiter, hquote⟩, hreturn⟩, hnewline⟩ := h
  refine ⟨hdelimiter, hquote, ?_⟩
  rw [isBreak, Bool.or_eq_false_iff, beq_eq_false_iff_ne, beq_eq_false_iff_ne]
  exact ⟨hreturn, hnewline⟩

theorem quotechar_not_break : isBreak d.quotechar = false := by
  rw [isBreak, Bool.or_eq_false_iff, beq_eq_false_iff_ne, beq_eq_false_iff_ne]
  exact d.quotechar_ne_break

theorem delimiter_not_break : isBreak d.delimiter = false := by
  rw [isBreak, Bool.or_eq_false_iff, beq_eq_false_iff_ne, beq_eq_false_iff_ne]
  exact d.delimiter_ne_break

/-- A doubled quote is one character of the field. -/
theorem feed_escape (hmode : r.mode = .inQuotedField) :
    (escape d field).foldl (Reader.feed d) r = { r with field := r.field ++ field } := by
  induction field generalizing r with
  | nil => simp [escape]
  | cons c field ih =>
      have hrest : ∀ r' : Reader, r' = { r with field := r.field ++ [c] } →
          (escape d field).foldl (Reader.feed d) r' =
            { r with field := r.field ++ c :: field } := by
        rintro r' rfl
        rw [ih (r := { r with field := r.field ++ [c] }) hmode, List.append_assoc]
        rfl
      rw [escape, List.flatMap_cons, List.foldl_append]
      by_cases hquote : c = d.quotechar
      · refine hrest _ ?_
        rw [if_pos hquote]
        simp [Reader.feed, hmode, Reader.add, hquote]
      · refine hrest _ ?_
        rw [if_neg hquote]
        simp [Reader.feed, hmode, Reader.add, hquote]

theorem feed_plain (hmode : r.mode = .inField) (hplain : field.any d.special = false) :
    field.foldl (Reader.feed d) r = { r with field := r.field ++ field } := by
  induction field generalizing r with
  | nil => simp
  | cons c field ih =>
      rw [List.any_cons, Bool.or_eq_false_iff] at hplain
      obtain ⟨hdelimiter, hquote, hbreak⟩ := not_special hplain.1
      have hc : r.feed d c = { r with field := r.field ++ [c] } := by
        simp [Reader.feed, hmode, hbreak, hdelimiter, Reader.add]
      rw [List.foldl_cons, hc, ih (r := { r with field := r.field ++ [c] }) hmode hplain.2,
        List.append_assoc]
      rfl

/-- The reader stands where a field begins. -/
def Reader.Fresh (r : Reader) : Prop :=
  (r.mode = .startRecord ∨ r.mode = .startField) ∧ r.field = []

/-- The reader has come through this field. -/
structure Reader.Through (r : Reader) (field : Field) (s : Reader) : Prop where
  holds : s.field = field
  fields : s.fields = r.fields
  records : s.records = r.records
  mode : s.mode = .inField ∨ s.mode = .quoteInQuotedField ∨ field = [] ∧ s.mode = r.mode

theorem startField_of_fresh {c : Char} (h : r.Fresh) (hbreak : isBreak c = false) :
    r.feed d c = r.startField d c := by
  rcases h.1 with hmode | hmode
  · rw [Reader.feed, hmode]
    simp [Reader.startRecord, hbreak]
  · rw [Reader.feed, hmode]

theorem feed_writeField (h : r.Fresh) (field : Field) :
    r.Through field ((writeField d field).foldl (Reader.feed d) r) := by
  unfold writeField
  split
  case isTrue =>
    have hopen : r.feed d d.quotechar = { r with mode := .inQuotedField } := by
      rw [startField_of_fresh h quotechar_not_break]
      simp [Reader.startField, quotechar_not_break]
    simp only [List.foldl_append, List.foldl_cons, List.foldl_nil, hopen]
    rw [feed_escape rfl, h.2]
    have hclose : Reader.feed d { r with mode := .inQuotedField, field := [] ++ field }
        d.quotechar = { r with mode := .quoteInQuotedField, field := field } := by
      simp [Reader.feed]
    rw [hclose]
    exact ⟨rfl, rfl, rfl, .inr (.inl rfl)⟩
  case isFalse hplain =>
    rw [Bool.not_eq_true] at hplain
    cases field with
    | nil => exact ⟨h.2, rfl, rfl, .inr (.inr ⟨rfl, rfl⟩)⟩
    | cons c field =>
        rw [List.any_cons, Bool.or_eq_false_iff] at hplain
        obtain ⟨hdelimiter, hquote, hbreak⟩ := not_special hplain.1
        have hc : r.feed d c = { r with field := [c], mode := .inField } := by
          rw [startField_of_fresh h hbreak]
          simp [Reader.startField, hbreak, hdelimiter, hquote, Reader.add, h.2]
        rw [List.foldl_cons, hc, feed_plain rfl hplain.2]
        exact ⟨rfl, rfl, rfl, .inl rfl⟩

/-! ## One record -/

theorem feed_delimiter (hr : r.Fresh) (h : r.Through field s) :
    s.feed d d.delimiter = s.saveField .startField := by
  have hquote := d.delimiter_ne_quotechar
  rcases h.mode with hmode | hmode | ⟨rfl, hmode⟩
  · simp [Reader.feed, hmode, delimiter_not_break]
  · simp [Reader.feed, hmode, hquote]
  · have hs : s.Fresh := ⟨hmode ▸ hr.1, h.holds⟩
    rw [startField_of_fresh hs delimiter_not_break]
    simp [Reader.startField, delimiter_not_break, hquote]

theorem feed_return (hr : r.Fresh) (h : r.Through field s) (hs : s.mode ≠ .startRecord) :
    s.feed d '\r' = (s.saveField .startField).endRecord '\r' := by
  have hreturn : isBreak '\r' = true := rfl
  rcases h.mode with hmode | hmode | ⟨-, hmode⟩
  · simp [Reader.feed, hmode, hreturn]
  · have hdelimiter : ¬ '\r' = d.delimiter := Ne.symm d.delimiter_ne_break.1
    have hquote : ¬ '\r' = d.quotechar := Ne.symm d.quotechar_ne_break.1
    simp [Reader.feed, hmode, hreturn, hdelimiter, hquote]
  · have hstart : s.mode = .startField :=
      hmode.trans (hr.1.resolve_left fun h => hs (hmode.trans h))
    simp [Reader.feed, hstart, Reader.startField, hreturn]

/-- The fields of a record, and the carriage return behind them. -/
theorem feed_writeFields (hr : r.Fresh) (hnone : fields ≠ [])
    (hone : r.mode = .startField ∨ fields ≠ [[]]) :
    (writeFields d fields ++ ['\r']).foldl (Reader.feed d) r =
      { mode := .eatCrnl, records := r.records ++ [r.fields ++ fields] } := by
  induction fields generalizing r with
  | nil => exact absurd rfl hnone
  | cons field fields ih =>
      have hthrough := feed_writeField (d := d) hr field
      cases fields with
      | nil =>
          have hstarted : ((writeField d field).foldl (Reader.feed d) r).mode ≠ .startRecord := by
            intro hstart
            rcases hthrough.mode with hmode | hmode | ⟨rfl, hmode⟩
            · cases hmode.symm.trans hstart
            · cases hmode.symm.trans hstart
            · rcases hone with hone | hone
              · cases (hmode.trans hone).symm.trans hstart
              · exact hone rfl
          have hreturn := feed_return (d := d) hr hthrough hstarted
          rw [writeFields, List.foldl_append, List.foldl_cons, hreturn, List.foldl_nil]
          simp only [Reader.endRecord, Reader.saveField, hthrough.holds, hthrough.fields,
            hthrough.records, if_true]
      | cons next fields =>
          have hdelimiter := feed_delimiter (d := d) hr hthrough
          rw [writeFields, List.append_assoc, List.cons_append, List.foldl_append, List.foldl_cons,
            hdelimiter, ih ⟨.inr rfl, rfl⟩ (List.cons_ne_nil _ _) (.inl rfl)]
          simp only [Reader.saveField, hthrough.holds, hthrough.fields, hthrough.records,
            List.append_assoc, List.singleton_append]
          exact List.cons_ne_nil next fields

theorem feed_writeRow (hmode : r.mode = .startRecord) (hfield : r.field = [])
    (hfields : r.fields = []) (record : Record) :
    (writeRow d record).foldl (Reader.feed d) r =
      { r with records := r.records ++ [record] } := by
  have hnewline : ∀ records, Reader.feed d { mode := .eatCrnl, records } '\n' =
      { r with records } := by
    intro records
    simp [Reader.feed, hmode, hfield, hfields]
  have hfresh : r.Fresh := ⟨.inl hmode, hfield⟩
  unfold writeRow
  split
  case isTrue hempty =>
    have hquote : r.feed d d.quotechar = { r with mode := .inQuotedField } := by
      rw [startField_of_fresh hfresh quotechar_not_break]
      simp [Reader.startField, quotechar_not_break]
    have hthrough : r.Through [] { r with mode := .quoteInQuotedField } :=
      ⟨hfield, rfl, rfl, .inr (.inl rfl)⟩
    have hclose : Reader.feed d { r with mode := .inQuotedField } d.quotechar =
        { r with mode := .quoteInQuotedField } := by
      simp [Reader.feed]
    have hreturn := feed_return (d := d) hfresh hthrough nofun
    simp only [List.cons_append, List.nil_append, List.foldl_cons, List.foldl_nil, hquote, hclose,
      hreturn]
    simp [Reader.saveField, Reader.endRecord, hnewline, hfield, hfields, hempty]
  case isFalse hone =>
    cases record with
    | nil =>
        have hreturn : r.feed d '\r' = { mode := .eatCrnl, records := r.records ++ [[]] } := by
          simp [Reader.feed, hmode, Reader.startRecord, isBreak, Reader.endRecord, hfield, hfields]
        simp only [writeFields, List.nil_append, List.foldl_cons, List.foldl_nil, hreturn, hnewline]
    | cons field fields =>
        have hrecord := feed_writeFields (d := d) hfresh (List.cons_ne_nil field fields)
          (.inr hone)
        rw [show ['\r', '\n'] = ['\r'] ++ ['\n'] from rfl, ← List.append_assoc, List.foldl_append,
          hrecord, List.foldl_cons, List.foldl_nil,
          hnewline, hfields, List.nil_append]

/-- **What is written is read back.** -/
theorem read_write (d : Dialect) (records : List Record) : read d (write d records) = records := by
  have hrun : ∀ (records : List Record) (r : Reader), r.mode = .startRecord → r.field = [] →
      r.fields = [] → (write d records).foldl (Reader.feed d) r =
        { r with records := r.records ++ records } := by
    intro records
    induction records with
    | nil =>
        intro r _ _ _
        simp [write]
    | cons record records ih =>
        intro r hmode hfield hfields
        rw [write, List.flatMap_cons, List.foldl_append, feed_writeRow hmode hfield hfields record]
        refine (ih { r with records := r.records ++ [record] } hmode hfield hfields).trans ?_
        rw [List.append_assoc]
        rfl
  rw [read, hrun records {} rfl rfl rfl]
  rfl

end Lib.Csv
