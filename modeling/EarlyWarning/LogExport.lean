/-
# `LogExport` — the export of a log that is written and cleaned up meanwhile

`_iter_log_batches` of `app/log_service.py` reads the largest id, and then one batch after
another, each in a session of its own: between two of them executions store their logs, and the
retention deletes old ones.  It is a generator, so a step is what one `next` does with the
table as it stands.

A batch is a page of the rows up to the largest id (`selectBatch_eq_page`), in the order of the
pairs of timestamp and id, and what holds of the export is what `Lib.Keyset` says of a scan.
-/
import EarlyWarning.Models
import EarlyWarning.Lib.Keyset
import EarlyWarning.Lib.Run
import Mathlib.Data.List.Perm.Subperm
import Mathlib.Data.Prod.Lex

namespace EarlyWarning.LogExport

open Lib

/-! ## The two logs -/

def csvExportBatchSize : Nat := 500

/-- A mail log as it is stored, with the default of `sent_at`. -/
structure StoredMailLog extends MailLog where
  sentAt : DateTime
deriving DecidableEq

/-- What `_iter_log_batches` is called with. -/
structure Columns (ρ : Type) where
  timestampColumn : ρ → DateTime
  idColumn : ρ → Nat

/-- `iter_execution_log_batches` -/
def executionLogColumns : Columns ExecutionLog := ⟨ExecutionLog.startedAt, ExecutionLog.id⟩

/-- `iter_mail_log_batches` -/
def mailLogColumns : Columns StoredMailLog := ⟨StoredMailLog.sentAt, fun row => row.id⟩

/-! ## `_iter_log_batches` -/

/-- Where the generator stands, with the batches that it has yielded. -/
inductive Generator (ρ : Type)
  | start
  | exporting (maxId : Nat) (cursor : Option (DateTime × Nat)) (batches : List (List ρ))
  | finished (batches : List (List ρ))
  /-- a query raised -/
  | failed (batches : List (List ρ))
deriving DecidableEq

structure State (ρ : Type) where
  table : List ρ
  /-- the largest id that was ever used -/
  lastId : Nat
  generator : Generator ρ
deriving DecidableEq

inductive Label (ρ : Type)
  | insert (row : ρ)
  /-- the row of this id gets other values -/
  | update (row : ρ)
  | delete (ids : List Nat)
  /-- the next query of the generator, which may raise -/
  | next (raises : Bool)
deriving DecidableEq

def Generator.batches {ρ : Type} : Generator ρ → List (List ρ)
  | .start => []
  | .exporting _ _ batches | .finished batches | .failed batches => batches

def Generator.exported {ρ : Type} (g : Generator ρ) : List ρ := g.batches.flatten

def Generator.Ended {ρ : Type} : Generator ρ → Prop
  | .start | .exporting .. => False
  | .finished _ | .failed _ => True

def Label.isNext {ρ : Type} : Label ρ → Bool
  | .next _ => true
  | _ => false

section

variable {ρ : Type} (columns : Columns ρ)

/-- The condition on the cursor. -/
def afterCursor : Option (DateTime × Nat) → ρ → Bool
  | none, _ => true
  | some (cursorTimestamp, cursorId), row =>
      columns.timestampColumn row < cursorTimestamp ∨
        (columns.timestampColumn row = cursorTimestamp ∧ columns.idColumn row < cursorId)

/-- Descending by timestamp, and then by id. -/
def OrderBy (a b : ρ) : Prop :=
  columns.timestampColumn b < columns.timestampColumn a ∨
    (columns.timestampColumn a = columns.timestampColumn b ∧
      columns.idColumn b ≤ columns.idColumn a)

instance (a b : ρ) : Decidable (OrderBy columns a b) :=
  inferInstanceAs (Decidable (_ ∨ _))

/-- The SELECT of a batch. -/
def selectBatch (table : List ρ) (maxId : Nat) (cursor : Option (DateTime × Nat)) : List ρ :=
  (((table.filter fun row => columns.idColumn row ≤ maxId).filter
    (afterCursor columns cursor)).insertionSort (OrderBy columns)).take csvExportBatchSize

/-- From one query of the generator to the next. -/
def iterLogBatches (table : List ρ) : Generator ρ → Option (Generator ρ)
  | .start =>
      match (table.map columns.idColumn).max? with
      | none => some (.finished [])
      | some maxId => some (.exporting maxId none [])
  | .exporting maxId cursor batches =>
      let batch := selectBatch columns table maxId cursor
      match batch.getLast? with
      | none => some (.finished batches)
      | some last =>
          some (.exporting maxId (some (columns.timestampColumn last, columns.idColumn last))
            (batches ++ [batch]))
  | .finished _ | .failed _ => none

def step (s : State ρ) : Label ρ → Option (State ρ)
  | .insert row =>
      -- ids are not used again
      if s.lastId < columns.idColumn row then
        some { s with table := s.table ++ [row], lastId := columns.idColumn row }
      else none
  | .update row =>
      if ∀ old ∈ s.table, columns.idColumn old = columns.idColumn row →
          columns.timestampColumn old = columns.timestampColumn row then
        some { s with table := s.table.map fun old =>
          if columns.idColumn old = columns.idColumn row then row else old }
      else none
  | .delete ids =>
      some { s with table := s.table.filter fun row => columns.idColumn row ∉ ids }
  | .next false =>
      (iterLogBatches columns s.table s.generator).map fun generator => { s with generator }
  | .next true =>
      match s.generator with
      | .start | .exporting .. => some { s with generator := .failed s.generator.batches }
      | .finished _ | .failed _ => none

/-- The id is the primary key, and no row is newer than the last id. -/
structure TableOk (s : State ρ) : Prop where
  primaryKey : (s.table.map columns.idColumn).Nodup
  used : ∀ row ∈ s.table, columns.idColumn row ≤ s.lastId

/-- The key that a log is ordered by. -/
def Columns.key (row : ρ) : DateTime ×ₗ Nat :=
  toLex (columns.timestampColumn row, columns.idColumn row)

end

variable {ρ : Type} {columns : Columns ρ} {s t : State ρ} {table original : List ρ} {maxId : Nat}
  {cursor : Option (DateTime × Nat)} {batches : List (List ρ)} {row a b : ρ}

/-! ## A batch is a page -/

theorem key_eq_iff : columns.key a = columns.key b ↔
    columns.timestampColumn a = columns.timestampColumn b ∧
      columns.idColumn a = columns.idColumn b := by
  simp [Columns.key]

theorem key_lt_iff : columns.key a < columns.key b ↔
    columns.timestampColumn a < columns.timestampColumn b ∨
      (columns.timestampColumn a = columns.timestampColumn b ∧
        columns.idColumn a < columns.idColumn b) := by
  simp only [Columns.key, Prod.Lex.toLex_lt_toLex]

theorem afterCursor_eq : afterCursor columns cursor row =
    decide (Below (cursor.map toLex) (columns.key row)) := by
  cases cursor with
  | none => rfl
  | some c =>
      obtain ⟨cursorTimestamp, cursorId⟩ := c
      simp only [afterCursor, Option.map_some, Below, Columns.key, Prod.Lex.toLex_lt_toLex]

theorem orderBy_iff : OrderBy columns a b ↔ columns.key b ≤ columns.key a := by
  simp only [OrderBy, Columns.key, Prod.Lex.toLex_le_toLex,
    eq_comm (a := columns.timestampColumn a)]

theorem selectBatch_eq_page (table : List ρ) (maxId : Nat) (cursor : Option (DateTime × Nat)) :
    selectBatch columns table maxId cursor =
      page columns.key csvExportBatchSize (cursor.map toLex)
        (table.filter fun row => columns.idColumn row ≤ maxId) := by
  simp only [selectBatch, page, sortedBelow, ← afterCursor_eq, ← orderBy_iff]

theorem key_nodup (h : (table.map columns.idColumn).Nodup) :
    ((table.filter fun row => columns.idColumn row ≤ maxId).map columns.key).Nodup := by
  have hsub : ((table.filter fun row => columns.idColumn row ≤ maxId).map
      columns.idColumn).Nodup := h.sublist (List.filter_sublist.map _)
  refine List.Nodup.of_map (fun k => (ofLex k).2) ?_
  rwa [List.map_map]

/-! ## The invariant -/

/-- The exported rows were there when the largest id was read. -/
structure Exported (columns : Columns ρ) (original : List ρ) (maxId : Nat) (exported : List ρ) :
    Prop where
  decreasing : exported.Pairwise fun a b => columns.key b < columns.key a
  original : ∀ row ∈ exported, ∃ old ∈ original, columns.key old = columns.key row
  known : ∀ row ∈ exported, columns.idColumn row ≤ maxId

/-- `original` is the table from which `maxId` was read. -/
structure ExportInv (columns : Columns ρ) (original : List ρ) (maxId : Nat) (s : State ρ) :
    Prop where
  table : TableOk columns s
  bound : maxId ≤ s.lastId
  rows : ∀ row ∈ s.table, columns.idColumn row ≤ maxId →
    ∃ old ∈ original, columns.key old = columns.key row
  exported : Exported columns original maxId s.generator.exported
  nonempty : ∀ batch ∈ s.generator.batches, batch ≠ []
  scan : match s.generator with
    | .start => False
    | .exporting maxId' cursor batches => maxId' = maxId ∧
        Scan columns.key (cursor.map toLex) batches.flatten
          (s.table.filter fun row => columns.idColumn row ≤ maxId)
    | .finished batches => ∀ row ∈ s.table, columns.idColumn row ≤ maxId →
        ∃ e ∈ batches.flatten, columns.key e = columns.key row
    | .failed _ => True

/-- What the other writers do to the table between two queries: no row that they bring in has
an id which was used before, or another key than the row of its id. -/
structure TableStep (columns : Columns ρ) (s t : State ρ) : Prop where
  generator : t.generator = s.generator
  lastId : s.lastId ≤ t.lastId
  table : TableOk columns t
  rows : ∀ row ∈ t.table, columns.idColumn row ≤ s.lastId →
    ∃ old ∈ s.table, columns.key old = columns.key row

theorem step_insert (h : TableOk columns s) (hstep : step columns s (.insert row) = some t) :
    s.lastId < columns.idColumn row ∧ TableStep columns s t := by
  simp only [step] at hstep
  split at hstep
  case isFalse => cases hstep
  case isTrue hlt =>
    cases hstep
    refine ⟨hlt, rfl, Nat.le_of_lt hlt, ⟨?_, ?_⟩, ?_⟩
    · simp only [List.map_append, List.map_cons, List.map_nil]
      refine List.nodup_append.mpr ⟨h.primaryKey, List.nodup_singleton _, ?_⟩
      rintro id hid id' hid' rfl
      obtain ⟨old, hold, rfl⟩ := List.mem_map.mp hid
      have hused := h.used old hold
      rw [List.mem_singleton.mp hid'] at hused
      omega
    · intro row' hrow'
      rcases List.mem_append.mp hrow' with hold | hnew
      · exact Nat.le_trans (h.used row' hold) (Nat.le_of_lt hlt)
      · rw [List.mem_singleton.mp hnew]
    · intro row' hrow' hle
      rcases List.mem_append.mp hrow' with hold | hnew
      · exact ⟨row', hold, rfl⟩
      · rw [List.mem_singleton.mp hnew] at hle
        omega

theorem step_update (h : TableOk columns s) (hstep : step columns s (.update row) = some t) :
    TableStep columns s t := by
  simp only [step] at hstep
  split at hstep
  case isFalse => cases hstep
  case isTrue himmutable =>
    cases hstep
    have hkey : ∀ old ∈ s.table, columns.key
        (if columns.idColumn old = columns.idColumn row then row else old) =
          columns.key old := by
      intro old hold
      split
      case isTrue hid => exact key_eq_iff.mpr ⟨(himmutable old hold hid).symm, hid.symm⟩
      case isFalse => rfl
    refine ⟨rfl, Nat.le_refl _, ⟨?_, ?_⟩, ?_⟩
    · rw [List.map_map]
      have hids : s.table.map (columns.idColumn ∘ fun old =>
          if columns.idColumn old = columns.idColumn row then row else old) =
            s.table.map columns.idColumn :=
        List.map_congr_left fun old hold => (key_eq_iff.mp (hkey old hold)).2
      rw [hids]
      exact h.primaryKey
    · intro row' hrow'
      obtain ⟨old, hold, rfl⟩ := List.mem_map.mp hrow'
      rw [(key_eq_iff.mp (hkey old hold)).2]
      exact h.used old hold
    · intro row' hrow' _
      obtain ⟨old, hold, rfl⟩ := List.mem_map.mp hrow'
      exact ⟨old, hold, (hkey old hold).symm⟩

theorem step_delete {ids : List Nat} (h : TableOk columns s)
    (hstep : step columns s (.delete ids) = some t) : TableStep columns s t := by
  cases hstep
  refine ⟨rfl, Nat.le_refl _, ⟨h.primaryKey.sublist (List.filter_sublist.map _), ?_⟩, ?_⟩
  · intro row hrow
    exact h.used row (List.mem_of_mem_filter hrow)
  · intro row hrow _
    exact ⟨row, List.mem_of_mem_filter hrow, rfl⟩

/-! ## Every step keeps it -/

theorem ExportInv.tableStep (h : ExportInv columns original maxId s)
    (hstep : TableStep columns s t) : ExportInv columns original maxId t := by
  have hrows : ∀ row ∈ t.table, columns.idColumn row ≤ maxId →
      ∃ old ∈ s.table, columns.idColumn old ≤ maxId ∧ columns.key old = columns.key row := by
    intro row hrow hle
    obtain ⟨old, hold, hkey⟩ := hstep.rows row hrow (Nat.le_trans hle h.bound)
    exact ⟨old, hold, (key_eq_iff.mp hkey).2 ▸ hle, hkey⟩
  refine ⟨hstep.table, Nat.le_trans h.bound hstep.lastId, ?_, ?_, ?_, ?_⟩
  · intro row hrow hle
    obtain ⟨old, hold, hle', hkey⟩ := hrows row hrow hle
    rw [← hkey]
    exact h.rows old hold hle'
  · rw [hstep.generator]
    exact h.exported
  · rw [hstep.generator]
    exact h.nonempty
  · have hscan := h.scan
    rw [hstep.generator]
    split at hscan
    case h_1 => exact hscan
    case h_2 =>
      refine ⟨hscan.1, hscan.2.mono fun row hrow => ?_⟩
      obtain ⟨hrow, hle⟩ := List.mem_filter.mp hrow
      obtain ⟨old, hold, hle', hkey⟩ := hrows row hrow (of_decide_eq_true hle)
      exact ⟨old, List.mem_filter.mpr ⟨hold, decide_eq_true hle'⟩, hkey⟩
    case h_3 =>
      intro row hrow hle
      obtain ⟨old, hold, hle', hkey⟩ := hrows row hrow hle
      rw [← hkey]
      exact hscan old hold hle'
    case h_4 => trivial

theorem TableOk.move (h : TableOk columns s) {generator : Generator ρ} :
    TableOk columns { s with generator } :=
  ⟨h.primaryKey, h.used⟩

theorem exported_nil : Exported columns original maxId [] :=
  ⟨List.Pairwise.nil, fun _ h => (List.not_mem_nil h).elim, fun _ h => (List.not_mem_nil h).elim⟩

/-- The rows of the next page. -/
theorem Exported.page {exported rows : List ρ} (h : Exported columns original maxId exported)
    (hrows : ∀ row ∈ rows, columns.idColumn row ≤ maxId ∧
      ∃ old ∈ original, columns.key old = columns.key row)
    (hdecreasing : (exported ++ rows).Pairwise fun a b => columns.key b < columns.key a) :
    Exported columns original maxId (exported ++ rows) := by
  refine ⟨hdecreasing, fun row hrow => ?_, fun row hrow => ?_⟩
  · rcases List.mem_append.mp hrow with hold | hnew
    · exact h.original row hold
    · exact (hrows row hnew).2
  · rcases List.mem_append.mp hrow with hold | hnew
    · exact h.known row hold
    · exact (hrows row hnew).1

theorem ExportInv.next (h : ExportInv columns original maxId s)
    (hstep : step columns s (.next false) = some t) : ExportInv columns original maxId t := by
  obtain ⟨generator, hnext, rfl⟩ := Option.map_eq_some_iff.mp hstep
  cases hgen : s.generator with
  | start =>
      have hscan := h.scan
      rw [hgen] at hscan
      exact hscan.elim
  | exporting maxId' cursor batches =>
      obtain ⟨htable, hbound, hrows, hexported, hnonempty, hscan⟩ := h
      rw [hgen] at hexported hnonempty hscan hnext
      obtain ⟨rfl, hscan⟩ := hscan
      simp only [iterLogBatches, selectBatch_eq_page] at hnext
      split at hnext
      case h_1 hnone =>
        cases hnext
        have hempty := List.getLast?_eq_none_iff.mp hnone
        refine ⟨htable.move, hbound, hrows, hexported, hnonempty, fun row hrow hle => ?_⟩
        exact hscan.finished (by decide) hempty
          (List.mem_filter.mpr ⟨hrow, decide_eq_true hle⟩)
      case h_2 last hlast =>
        cases hnext
        have hscan' := hscan.next (key_nodup htable.primaryKey) hlast
        have hflatten : ∀ batch : List ρ, (batches ++ [batch]).flatten =
            batches.flatten ++ batch := fun batch => by simp
        refine ⟨htable.move, hbound, hrows, ?_, ?_, rfl, ?_⟩
        · show Exported columns original maxId' (batches ++ [_]).flatten
          rw [hflatten]
          refine hexported.page (fun row hrow => ?_) hscan'.decreasing
          obtain ⟨hmem, hle⟩ := List.mem_filter.mp (mem_page hrow).1
          exact ⟨of_decide_eq_true hle, hrows row hmem (of_decide_eq_true hle)⟩
        · intro batch hbatch
          rcases List.mem_append.mp hbatch with hold | hnew
          · exact hnonempty batch hold
          · rw [List.mem_singleton.mp hnew]
            rintro hempty
            rw [hempty] at hlast
            cases hlast
        · rw [hflatten]
          exact hscan'
  | finished batches =>
      rw [hgen] at hnext
      cases hnext
  | failed batches =>
      rw [hgen] at hnext
      cases hnext

theorem ExportInv.fail (h : ExportInv columns original maxId s)
    (hstep : step columns s (.next true) = some t) : ExportInv columns original maxId t := by
  simp only [step] at hstep
  split at hstep
  case h_1 hgen =>
    have hscan := h.scan
    rw [hgen] at hscan
    exact hscan.elim
  case h_2 hgen =>
    cases hstep
    exact ⟨h.table.move, h.bound, h.rows, h.exported, h.nonempty, trivial⟩
  case h_3 => cases hstep
  case h_4 => cases hstep

theorem step_exportInv {a : Label ρ} (h : ExportInv columns original maxId s)
    (hstep : step columns s a = some t) : ExportInv columns original maxId t := by
  cases a with
  | insert row => exact h.tableStep (step_insert h.table hstep).2
  | update row => exact h.tableStep (step_update h.table hstep)
  | delete ids => exact h.tableStep (step_delete h.table hstep)
  | next raises =>
      cases raises with
      | false => exact h.next hstep
      | true => exact h.fail hstep

theorem run_exportInv {labels : List (Label ρ)} (h : ExportInv columns original maxId s)
    (hrun : fire (step columns) s labels = some t) : ExportInv columns original maxId t :=
  fire_invariant (fun _ _ _ hs hstep => step_exportInv hs hstep) h hrun

/-- The first query. -/
theorem snapshot_exportInv (htable : TableOk columns s) (hgen : s.generator = .start)
    (hstep : step columns s (.next false) = some t) :
    ∃ maxId, (∀ m, (s.table.map columns.idColumn).max? = some m → m = maxId) ∧
      ExportInv columns s.table maxId t := by
  obtain ⟨generator, hnext, rfl⟩ := Option.map_eq_some_iff.mp hstep
  simp only [hgen, iterLogBatches] at hnext
  split at hnext
  case h_1 hnone =>
    cases hnext
    have hnil : s.table = [] := List.map_eq_nil_iff.mp (List.max?_eq_none_iff.mp hnone)
    refine ⟨0, ?_, htable.move, Nat.zero_le _, fun row hrow _ => ⟨row, hrow, rfl⟩, exported_nil,
      fun _ h => (List.not_mem_nil h).elim, ?_⟩
    · intro m hm
      rw [hnone] at hm
      cases hm
    · intro row hrow
      simp only [hnil] at hrow
      cases hrow
  case h_2 maxId hmax =>
    cases hnext
    refine ⟨maxId, ?_, htable.move, ?_, fun row hrow _ => ⟨row, hrow, rfl⟩, exported_nil,
      fun _ h => (List.not_mem_nil h).elim, rfl, .start⟩
    · intro m hm
      rw [hmax] at hm
      exact (Option.some.inj hm).symm
    · obtain ⟨row, hrow, heq⟩ := List.mem_map.mp (List.max?_mem hmax)
      rw [← heq]
      exact htable.used row hrow

/-! ## The export ends -/

/-- How many queries an export of `n` rows can still make. -/
def Generator.remaining (n : Nat) : Generator ρ → Nat
  | .start => n + 2
  | .exporting _ _ batches => n - batches.length + 1
  | .finished _ | .failed _ => 0

theorem length_le_flatten {l : List (List ρ)} (h : ∀ batch ∈ l, batch ≠ []) :
    l.length ≤ l.flatten.length := by
  induction l with
  | nil => exact Nat.le_refl 0
  | cons batch rest ih =>
      have hbatch := List.length_pos_iff.mpr (h batch List.mem_cons_self)
      have hrest := ih fun b hb => h b (List.mem_cons_of_mem batch hb)
      simp only [List.length_cons, List.flatten_cons, List.length_append]
      omega

/-- The keys of different exported rows are those of different rows of the table. -/
theorem Exported.length_le {exported : List ρ} (h : Exported columns original maxId exported) :
    exported.length ≤ original.length := by
  have hnodup : (exported.map columns.key).Nodup :=
    List.pairwise_map.mpr (h.decreasing.imp fun hlt => (ne_of_lt hlt).symm)
  have hsub : exported.map columns.key ⊆ original.map columns.key := by
    intro k hk
    obtain ⟨row, hrow, rfl⟩ := List.mem_map.mp hk
    obtain ⟨old, hold, hkey⟩ := h.original row hrow
    exact hkey ▸ List.mem_map_of_mem hold
  simpa using (hnodup.subperm hsub).length_le

theorem ExportInv.batches_le (h : ExportInv columns original maxId s) :
    s.generator.batches.length ≤ original.length :=
  Nat.le_trans (length_le_flatten h.nonempty) h.exported.length_le

theorem step_remaining {a : Label ρ} (h : ExportInv columns original maxId s)
    (hstep : step columns s a = some t) :
    (if a.isNext then 1 else 0) + t.generator.remaining original.length ≤
      s.generator.remaining original.length := by
  have hlater := (step_exportInv h hstep).batches_le
  have hother : TableStep columns s t → 0 + t.generator.remaining original.length ≤
      s.generator.remaining original.length := by
    intro hstep
    rw [hstep.generator, Nat.zero_add]
  cases a with
  | insert row => exact hother (step_insert h.table hstep).2
  | update row => exact hother (step_update h.table hstep)
  | delete ids => exact hother (step_delete h.table hstep)
  | next raises =>
      cases raises with
      | true =>
          simp only [step] at hstep
          split at hstep
          case h_1 hgen =>
            cases hstep
            simp only [Label.isNext, hgen, Generator.remaining, if_true]
            omega
          case h_2 hgen =>
            cases hstep
            simp only [Label.isNext, hgen, Generator.remaining, if_true]
            omega
          case h_3 => cases hstep
          case h_4 => cases hstep
      | false =>
          obtain ⟨generator, hnext, rfl⟩ := Option.map_eq_some_iff.mp hstep
          cases hgen : s.generator with
          | start =>
              have hscan := h.scan
              rw [hgen] at hscan
              exact hscan.elim
          | exporting maxId' cursor batches =>
              rw [hgen] at hnext
              simp only [iterLogBatches] at hnext
              split at hnext
              case h_1 =>
                cases hnext
                simp only [Label.isNext, Generator.remaining, if_true]
                omega
              case h_2 =>
                cases hnext
                simp only [Generator.batches, List.length_append, List.length_singleton] at hlater
                simp only [Label.isNext, Generator.remaining, List.length_append,
                  List.length_singleton, if_true]
                omega
          | finished batches =>
              rw [hgen] at hnext
              cases hnext
          | failed batches =>
              rw [hgen] at hnext
              cases hnext

theorem run_remaining {labels : List (Label ρ)} : ∀ {s : State ρ},
    ExportInv columns original maxId s → fire (step columns) s labels = some t →
    labels.countP Label.isNext + t.generator.remaining original.length ≤
      s.generator.remaining original.length := by
  induction labels with
  | nil =>
      intro s h hrun
      cases fire_nil.mp hrun
      simp
  | cons a rest ih =>
      intro s h hrun
      obtain ⟨u, hu, hrest⟩ := fire_cons.mp hrun
      have hone := step_remaining h hu
      have hmore := ih (step_exportInv h hu) hrest
      rw [List.countP_cons]
      omega

/-- The rows that a run inserts are newer than every id of its first state. -/
theorem run_insert {labels : List (Label ρ)} {new : ρ} : ∀ {s : State ρ},
    ExportInv columns original maxId s → fire (step columns) s labels = some t →
    .insert new ∈ labels → maxId < columns.idColumn new := by
  induction labels with
  | nil =>
      intro s h hrun hmem
      cases hmem
  | cons a rest ih =>
      intro s h hrun hmem
      obtain ⟨u, hu, hrest⟩ := fire_cons.mp hrun
      rcases List.mem_cons.mp hmem with rfl | hmem
      · exact Nat.lt_of_le_of_lt h.bound (step_insert h.table hu).1
      · exact ih (step_exportInv h hu) hrest hmem

/-! ## The export -/

/-- What an export from `s` has done at `t`, after the steps `labels`. -/
structure ExportOk (columns : Columns ρ) (s : State ρ) (labels : List (Label ρ)) (t : State ρ) :
    Prop where
  decreasing : t.generator.exported.Pairwise fun a b =>
    columns.timestampColumn b < columns.timestampColumn a ∨
      (columns.timestampColumn b = columns.timestampColumn a ∧
        columns.idColumn b < columns.idColumn a)
  once : (t.generator.exported.map columns.idColumn).Nodup
  original : ∀ row ∈ t.generator.exported, ∃ old ∈ s.table,
    columns.idColumn old = columns.idColumn row ∧
      columns.timestampColumn old = columns.timestampColumn row
  notInserted : ∀ new, .insert new ∈ labels → ∀ row ∈ t.generator.exported,
    columns.idColumn row ≠ columns.idColumn new
  /-- ids are not used again: what is there in the end has been there all the time -/
  complete : ∀ batches maxId, t.generator = .finished batches →
    (s.table.map columns.idColumn).max? = some maxId → ∀ row ∈ t.table,
    columns.idColumn row ≤ maxId → ∃ e ∈ batches.flatten,
      columns.idColumn e = columns.idColumn row ∧
        columns.timestampColumn e = columns.timestampColumn row
  bounded : labels.countP Label.isNext ≤ s.table.length + 2
  goesOn : ¬t.generator.Ended → ∃ u, step columns t (.next false) = some u

theorem not_ended (h : ¬s.generator.Ended) : ∃ t, step columns s (.next false) = some t := by
  cases hgen : s.generator with
  | start =>
      simp only [step, hgen, iterLogBatches]
      split
      case h_1 => exact ⟨_, rfl⟩
      case h_2 => exact ⟨_, rfl⟩
  | exporting maxId cursor batches =>
      simp only [step, hgen, iterLogBatches]
      split
      case h_1 => exact ⟨_, rfl⟩
      case h_2 => exact ⟨_, rfl⟩
  | finished batches => exact absurd (by rw [hgen]; trivial) h
  | failed batches => exact absurd (by rw [hgen]; trivial) h

/-- Rows with one id are one row of the first table. -/
theorem Exported.once {exported : List ρ} (h : Exported columns original maxId exported)
    (hkey : (original.map columns.idColumn).Nodup) : (exported.map columns.idColumn).Nodup := by
  refine List.pairwise_map.mpr (h.decreasing.imp_of_mem fun ha hb hlt heq => ?_)
  obtain ⟨old, hold, holda⟩ := h.original _ ha
  obtain ⟨old', hold', holdb⟩ := h.original _ hb
  have hid : columns.idColumn old = columns.idColumn old' := by
    rw [(key_eq_iff.mp holda).2, (key_eq_iff.mp holdb).2, heq]
  have hsame : old = old' := List.inj_on_of_nodup_map hkey hold hold' hid
  rw [← holda, ← holdb, hsame] at hlt
  exact lt_irrefl _ hlt

/-- **The export is a consistent one**, whatever is written and deleted while it goes on. -/
theorem log_export (htable : TableOk columns s) (hgen : s.generator = .start)
    {labels : List (Label ρ)} (hrun : fire (step columns) s (.next false :: labels) = some t) :
    ExportOk columns s (.next false :: labels) t := by
  obtain ⟨u, hu, hrest⟩ := fire_cons.mp hrun
  obtain ⟨maxId, hmax, hinv⟩ := snapshot_exportInv htable hgen hu
  have ht := run_exportInv hinv hrest
  refine ⟨?_, ht.exported.once htable.primaryKey, fun row hrow => ?_, fun new hnew row hrow => ?_,
    fun batches m hfinished hm row hrow hle => ?_, ?_, not_ended⟩
  · exact ht.exported.decreasing.imp fun hlt => key_lt_iff.mp hlt
  · obtain ⟨old, hold, hkey⟩ := ht.exported.original row hrow
    exact ⟨old, hold, (key_eq_iff.mp hkey).2, (key_eq_iff.mp hkey).1⟩
  · have hlt := run_insert hinv hrest ((List.mem_cons.mp hnew).resolve_left fun h => by cases h)
    exact Nat.ne_of_lt (Nat.lt_of_le_of_lt (ht.exported.known row hrow) hlt)
  · obtain rfl := hmax m hm
    have hscan := ht.scan
    rw [hfinished] at hscan
    obtain ⟨e, he, hkey⟩ := hscan row hrow hle
    exact ⟨e, he, (key_eq_iff.mp hkey).2, (key_eq_iff.mp hkey).1⟩
  · have hqueries := run_remaining hinv hrest
    have hstart : u.generator.remaining s.table.length ≤ s.table.length + 1 := by
      cases hu' : u.generator with
      | start =>
          have hscan := hinv.scan
          rw [hu'] at hscan
          exact hscan.elim
      | exporting _ _ batches =>
          simp only [Generator.remaining]
          omega
      | finished => exact Nat.zero_le _
      | failed => exact Nat.zero_le _
    rw [List.countP_cons_of_pos rfl]
    omega

/-! ## Two logs of one moment -/

namespace Sample

def log (id : Nat) (startedAt : DateTime) : ExecutionLog where
  id := id
  ruleId := 1
  triggerType := .scheduled
  status := .success
  startedAt := startedAt
  finishedAt := startedAt
  rowCount := 0
  emailCount := 0
  durationMs := 0
  errorType := ""
  errorMessage := ""

def start : State ExecutionLog where
  table := [log 1 100, log 2 100, log 3 50]
  lastId := 3
  generator := .start

theorem start_tableOk : TableOk executionLogColumns start := ⟨by decide, by decide⟩

end Sample

/-- A log is stored and one is deleted while the export goes on. -/
theorem log_export_whileWritten :
    ∃ t, fire (step executionLogColumns) Sample.start
        (.next false :: [.insert (Sample.log 4 100), .delete [3], .next false, .delete [2],
          .next false]) = some t ∧
      ExportOk executionLogColumns Sample.start
        (.next false :: [.insert (Sample.log 4 100), .delete [3], .next false, .delete [2],
          .next false]) t ∧
      t.generator = .finished [[Sample.log 2 100, Sample.log 1 100]] := by
  have hrun : (fire (step executionLogColumns) Sample.start
      (.next false :: [.insert (Sample.log 4 100), .delete [3], .next false, .delete [2],
        .next false])).map State.generator =
      some (.finished [[Sample.log 2 100, Sample.log 1 100]]) := by decide +kernel
  obtain ⟨t, ht, hgen⟩ := Option.map_eq_some_iff.mp hrun
  exact ⟨t, ht, log_export Sample.start_tableOk rfl ht, hgen⟩

end EarlyWarning.LogExport
