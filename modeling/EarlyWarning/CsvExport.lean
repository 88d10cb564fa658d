/-
# `CsvExport` — the file of an exported log

`stream_csv` and `csv_safe_cell` of `app/log_service.py`, and the two routes of `app/routes.py`
that export a log.  The file is sent chunk by chunk while the generator of `LogExport` reads the
log, so what a client has at any moment is the header and one record for each log read so far.

`csv_file`: the chunks sent so far read back as these records, whatever the texts of the logs are.
`export_file`: over every run of an export, what the file has of the log.
-/
import EarlyWarning.Lib.Calendar
import EarlyWarning.Lib.Csv
import EarlyWarning.LogListing

namespace EarlyWarning.CsvExport

open Lib LogExport LogListing

/-! ## Cells -/

/-- A cell of a row.  An enumeration of strings is the string of its value. -/
inductive Cell
  | text (value : String)
  | int (value : Int)
  | datetime (value : DateTime)
deriving DecidableEq

/-- A number with leading zeros. -/
def padded (width n : Nat) : String :=
  let digits := toString n
  String.ofList (List.replicate (width - digits.length) '0') ++ digits

/-- `str(value)` of a naive `datetime` -/
def datetimeStr (value : DateTime) : String :=
  let us := value.toNat
  let (year, month, day) := Calendar.ord2ymd (us / 86400000000 + 1)
  let seconds := us / 1000000 % 86400
  let date := padded 4 year ++ "-" ++ padded 2 month ++ "-" ++ padded 2 day
  let time := padded 2 (seconds / 3600) ++ ":" ++ padded 2 (seconds / 60 % 60) ++ ":" ++
    padded 2 (seconds % 60)
  let fraction := if us % 1000000 = 0 then "" else "." ++ padded 6 (us % 1000000)
  date ++ " " ++ time ++ fraction

/-- What the writer makes of a cell. -/
def Cell.str : Cell → String
  | .text value => value
  | .int value => toString value
  | .datetime value => datetimeStr value

/-- `value.startswith(("=", "+", "-", "@"))`: a spreadsheet takes the text for a formula. -/
def isFormula (value : String) : Bool :=
  match value.toList with
  | c :: _ => c ∈ ['=', '+', '-', '@']
  | [] => false

/-- `csv_safe_cell` -/
def csvSafeCell : Cell → Cell
  | .text value => if isFormula value then .text ("'" ++ value) else .text value
  | cell => cell

example : datetimeStr 63844790703000042 = "2024-02-29 08:05:03.000042" := by decide +kernel

/-! ## The chunks -/

/-- `writer.writerow`, and what the buffer then holds. -/
def writerow (record : List String) : String :=
  String.ofList (Csv.writeRow Csv.excel (record.map String.toList))

/-- `stream_csv`: the buffer is emptied before every row. -/
def streamCsv (headers : List String) (rowBatches : List (List (List Cell))) : List String :=
  "\ufeff" :: writerow headers :: rowBatches.flatten.map fun row =>
    writerow (row.map fun cell => (csvSafeCell cell).str)

/-- The characters that have been sent. -/
def sent (chunks : List String) : List Char := chunks.flatMap String.toList

/-- The records of a text, without its byte order mark. -/
def records (text : List Char) : List Csv.Record := Csv.read Csv.excel text.tail

/-- The record of a row. -/
def record (row : List Cell) : Csv.Record := row.map fun cell => (csvSafeCell cell).str.toList

/-! ## The two logs -/

/-- What a route exports of a log. -/
structure ExportedLog (ρ : Type) where
  columns : Columns ρ
  headers : List String
  cells : ρ → List Cell
  idFirst : ∀ row, (cells row).head? = some (.int (columns.idColumn row))
  width : ∀ row, (cells row).length = headers.length

/-- `export_execution_logs_csv`; a log that is stored has finished. -/
def exportExecutionLogsCsv : ExportedLog ExecutionLog where
  columns := executionLogColumns
  headers := ["ID", "规则ID", "触发方式", "状态", "开始时间", "结束时间", "返回行数", "邮件数",
    "耗时毫秒", "错误类型", "错误信息"]
  cells log := [.int log.id, .int log.ruleId, .text (triggerTypeValue log.triggerType),
    .text (executionStatusValue log.status), .datetime log.startedAt, .datetime log.finishedAt,
    .int log.rowCount, .int log.emailCount, .int log.durationMs, .text log.errorType,
    .text log.errorMessage]
  idFirst _ := rfl
  width _ := rfl

/-- `export_mail_logs_csv` -/
def exportMailLogsCsv : ExportedLog StoredMailLog where
  columns := mailLogColumns
  headers := ["ID", "执行记录ID", "收件人", "抄送", "主题", "状态", "错误信息", "发送时间"]
  cells log := [.int log.id, .int log.executionLogId, .text log.recipients, .text log.ccRecipients,
    .text log.subject, .text (mailStatusValue log.status), .text log.errorMessage,
    .datetime log.sentAt]
  idFirst _ := rfl
  width _ := rfl

/-- What has been sent when the generator stands here. -/
def ExportedLog.file {ρ : Type} (log : ExportedLog ρ) (generator : Generator ρ) : List Char :=
  sent (streamCsv log.headers (generator.batches.map fun batch => batch.map log.cells))

/-! ## What is read back -/

theorem sent_writerow (rows : List (List String)) :
    sent (rows.map writerow) = Csv.write Csv.excel (rows.map fun row => row.map String.toList) := by
  rw [sent, Csv.write, List.flatMap_map, List.flatMap_map]
  simp only [writerow, String.toList_ofList]

/-- The chunks are the records, one for each row that was sent, behind the header. -/
theorem records_streamCsv (headers : List String) (rowBatches : List (List (List Cell))) (k : Nat) :
    records (sent ((streamCsv headers rowBatches).take (k + 2))) =
      headers.map String.toList :: (rowBatches.flatten.take k).map record := by
  have hrows : (rowBatches.flatten.map fun row =>
        writerow (row.map fun cell => (csvSafeCell cell).str)).take k =
      ((rowBatches.flatten.take k).map fun row =>
        row.map fun cell => (csvSafeCell cell).str).map writerow := by
    rw [List.map_map, List.map_take]
    rfl
  have hchunks : (streamCsv headers rowBatches).take (k + 2) =
      "\ufeff" :: (headers :: (rowBatches.flatten.take k).map fun row =>
        row.map fun cell => (csvSafeCell cell).str).map writerow := by
    rw [streamCsv, List.take_succ_cons, List.take_succ_cons, hrows]
    rfl
  have hmark : ∀ rest, (sent ("\ufeff" :: rest)).tail = sent rest := fun rest => rfl
  rw [records, hchunks, hmark, sent_writerow, Csv.read_write, List.map_cons, List.map_map]
  simp only [Function.comp_def, List.map_map]
  rfl

/-! ## Cells that are safe -/

theorem isFormula_quote (value : String) : isFormula ("'" ++ value) = false := by
  have hlist : ("'" ++ value).toList = '\'' :: value.toList := String.toList_append
  rw [isFormula, hlist]
  rfl

theorem csvSafeCell_safe {cell : Cell} {value : String} (h : csvSafeCell cell = .text value) :
    isFormula value = false := by
  cases cell with
  | text original =>
      rw [csvSafeCell] at h
      split at h
      case isTrue =>
        cases h
        exact isFormula_quote original
      case isFalse hsafe =>
        cases h
        exact Bool.eq_false_iff.mpr hsafe
  | int | datetime => cases h

/-- The field of a text is the text, or the text behind an apostrophe when it is a formula. -/
theorem record_text {row : List Cell} {i : Nat} {value : String}
    (h : row[i]? = some (.text value)) :
    ∃ field, (record row)[i]? = some field ∧ isFormula (String.ofList field) = false ∧
      (field = value.toList ∨ isFormula value = true ∧ field = '\'' :: value.toList) := by
  refine ⟨(csvSafeCell (.text value)).str.toList, ?_, ?_, ?_⟩
  · rw [record, List.getElem?_map, h]
    rfl
  · rw [String.ofList_toList]
    cases hsafe : csvSafeCell (.text value) with
    | text safe => exact csvSafeCell_safe hsafe
    | int | datetime => simp only [csvSafeCell] at hsafe; split at hsafe <;> cases hsafe
  · rw [csvSafeCell]
    split
    case isTrue hformula =>
      refine .inr ⟨hformula, ?_⟩
      exact String.toList_append
    case isFalse => exact .inl rfl

/-! ## The file of an export -/

section

variable {ρ : Type} {log : ExportedLog ρ} {s t : State ρ}

/-- What the file of an export has of the log, when the generator stands at `t`. -/
structure FileOk (log : ExportedLog ρ) (s t : State ρ) : Prop where
  /-- a client that has received some of the chunks -/
  reads : ∀ k, records (sent ((streamCsv log.headers
      (t.generator.batches.map fun batch => batch.map log.cells)).take (k + 2))) =
    log.headers.map String.toList ::
      (t.generator.exported.take k).map fun row => record (log.cells row)
  rectangular : ∀ fields ∈ records (log.file t.generator), fields.length = log.headers.length
  once : ((records (log.file t.generator)).tail.map List.head?).Nodup
  safe : ∀ row ∈ t.generator.exported, ∀ (i : Nat) value,
    (log.cells row)[i]? = some (Cell.text value) →
    ∃ field, (record (log.cells row))[i]? = some field ∧
      isFormula (String.ofList field) = false ∧
      (field = value.toList ∨ isFormula value = true ∧ field = '\'' :: value.toList)
  complete : ∀ batches maxId, t.generator = .finished batches →
    (s.table.map log.columns.idColumn).max? = some maxId →
    ∀ row ∈ t.table, log.columns.idColumn row ≤ maxId →
      ∃ fields ∈ (records (log.file t.generator)).tail,
        fields.head? = some (toString (log.columns.idColumn row : Int)).toList

theorem flatten_cells (generator : Generator ρ) :
    (generator.batches.map fun batch => batch.map log.cells).flatten =
      generator.exported.map log.cells := by
  rw [Generator.exported, List.map_flatten]

theorem records_file (log : ExportedLog ρ) (generator : Generator ρ) :
    records (log.file generator) =
    log.headers.map String.toList ::
      generator.exported.map fun row => record (log.cells row) := by
  have hall := records_streamCsv log.headers
    (generator.batches.map fun batch => batch.map log.cells) generator.exported.length
  rw [flatten_cells, ← List.length_map log.cells, List.take_length,
    List.map_map] at hall
  refine Eq.trans (congrArg records ?_) hall
  rw [ExportedLog.file, List.take_of_length_le]
  simp only [streamCsv, flatten_cells, List.length_cons, List.length_map]
  omega

theorem head?_record (row : ρ) : (record (log.cells row)).head? =
    some (toString (log.columns.idColumn row : Int)).toList := by
  rw [record, List.head?_map, log.idFirst]
  rfl

/-- **The file of an export.**  While logs are stored and deleted, the chunks that a client has
received are whole records behind the header, as many fields each as the header has; no log is
there twice, no text of it is a formula, and in the end no log is missing that was there all the
time. -/
theorem export_file (log : ExportedLog ρ) (htable : TableOk log.columns s)
    (hgen : s.generator = .start) {labels : List (Label ρ)}
    (hrun : fire (step log.columns) s (.next false :: labels) = some t) : FileOk log s t := by
  obtain ⟨u, hu, hrest⟩ := fire_cons.mp hrun
  obtain ⟨maxId, hmax, hinv⟩ := snapshot_exportInv htable hgen hu
  have ht := run_exportInv hinv hrest
  have hfile := records_file log t.generator
  refine ⟨fun k => ?_, fun fields hfields => ?_, ?_, fun _ _ _ _ => record_text,
    fun batches m hfinished hm row hrow hle => ?_⟩
  · rw [records_streamCsv, flatten_cells, ← List.map_take, List.map_map]
    rfl
  · rw [hfile] at hfields
    rcases List.mem_cons.mp hfields with rfl | hfields
    · exact List.length_map _
    · obtain ⟨row, -, rfl⟩ := List.mem_map.mp hfields
      rw [record, List.length_map, log.width]
  · rw [hfile, List.tail_cons, List.map_map]
    have hids := ht.exported.once htable.primaryKey
    refine List.pairwise_map.mpr ((List.pairwise_map.mp hids).imp fun hne heq => hne ?_)
    simp only [Function.comp_apply, head?_record] at heq
    have hstr := PyInt.toString_injective (String.toList_inj.mp (Option.some.inj heq))
    exact Int.ofNat_inj.mp hstr
  · obtain rfl := hmax m hm
    have hscan := ht.scan
    rw [hfinished] at hscan
    obtain ⟨e, he, hkey⟩ := hscan row hrow hle
    refine ⟨record (log.cells e), ?_, ?_⟩
    · rw [hfile, List.tail_cons, hfinished]
      exact List.mem_map_of_mem he
    · rw [head?_record, (key_eq_iff.mp hkey).2]

end

theorem export_file_whileWritten :
    ∃ t, fire (step exportExecutionLogsCsv.columns) Sample.start
        (.next false :: [.insert (Sample.log 4 100), .delete [3], .next false, .delete [2],
          .next false]) = some t ∧
      FileOk exportExecutionLogsCsv Sample.start t := by
  have hrun : (fire (step exportExecutionLogsCsv.columns) Sample.start
      (.next false :: [.insert (Sample.log 4 100), .delete [3], .next false, .delete [2],
        .next false])).isSome = true := by decide +kernel
  obtain ⟨t, ht⟩ := Option.isSome_iff_exists.mp hrun
  exact ⟨t, ht, export_file exportExecutionLogsCsv Sample.start_tableOk rfl ht⟩

end EarlyWarning.CsvExport
