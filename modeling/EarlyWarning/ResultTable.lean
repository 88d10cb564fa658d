/-
# `ResultTable` — from a result set to the table in the mail

A query's rows become dictionaries by column name (`rows_from_cursor_limited`), and `_table`
takes its columns from the first of them.  `Shows` says what the reader of the mail should see:
a header cell for each column of the result, in each row a cell for each of them, and in a cell
a text that stands for the name or the value and cannot end the cell.

The table shows the result exactly when no two columns have one name (`table_shows`): a
dictionary keeps one entry for a name, so of two columns one is lost.  How many columns a table
has can be read off its text, because nothing between the tags contains a `<` (`count_lt`).
-/
import EarlyWarning.TemplateRenderer
import EarlyWarning.Lib.Wp
import Mathlib.Algebra.GroupWithZero.Nat
import Mathlib.Data.List.Dedup

namespace EarlyWarning.ResultTable

open Lib

/-! ## Escaped text -/

/-- The references that `html.escape` writes. -/
def references : List (List Char × Char) :=
  [("&amp;".toList, '&'), ("&lt;".toList, '<'), ("&gt;".toList, '>'), ("&quot;".toList, '"'),
    ("&#x27;".toList, '\'')]

/-- `escaped` is an HTML text without markup that reads `text`: each of its ampersands begins a
reference, and each of its other characters stands for itself. -/
inductive Reads : List Char → List Char → Prop
  | nil : Reads [] []
  | char {c : Char} {escaped text : List Char} (hc : c ∉ ['&', '<', '>', '"', '\'']) :
      Reads escaped text → Reads (c :: escaped) (c :: text)
  | reference {name : List Char} {c : Char} {escaped text : List Char}
      (hname : (name, c) ∈ references) : Reads escaped text → Reads (name ++ escaped) (c :: text)

theorem reads_escapeChar (c : Char) {escaped text : List Char} (h : Reads escaped text) :
    Reads (escapeChar c ++ escaped) (c :: text) := by
  dsimp only [escapeChar]
  split
  case h_6 hamp hlt hgt hquot hapos =>
    refine .char ?_ h
    simp only [List.mem_cons, List.not_mem_nil, or_false, not_or]
    exact ⟨hamp, hlt, hgt, hquot, hapos⟩
  all_goals exact .reference (by simp [references]) h

/-- An escaped text reads as what was escaped. -/
theorem reads_escape (s : String) : Reads (escape s).toList s.toList := by
  rw [escape, String.toList_ofList]
  induction s.toList with
  | nil => exact .nil
  | cons c rest ih => exact reads_escapeChar c ih

/-- No reference begins another. -/
theorem reference_prefix_free : ∀ a ∈ references, ∀ b ∈ references, a.1 <+: b.1 → a = b := by
  decide

theorem reference_inj {name name' : List Char} {c c' : Char} {rest rest' : List Char}
    (hname : (name, c) ∈ references) (hname' : (name', c') ∈ references)
    (h : name ++ rest = name' ++ rest') : c = c' ∧ rest = rest' := by
  have hsame : (name, c) = (name', c') := by
    have hpre : name <+: name' ++ rest' := h ▸ List.prefix_append name rest
    obtain hle | hle := List.prefix_or_prefix_of_prefix hpre (List.prefix_append name' rest')
    · exact reference_prefix_free _ hname _ hname' hle
    · exact (reference_prefix_free _ hname' _ hname hle).symm
  cases hsame
  exact ⟨rfl, List.append_cancel_left h⟩

theorem reference_head {name : List Char} {c d : Char} {rest rest' : List Char}
    (hname : (name, c) ∈ references) (h : name ++ rest = d :: rest') : d = '&' := by
  simp only [references, List.mem_cons, Prod.mk.injEq, List.not_mem_nil, or_false] at hname
  obtain ⟨rfl, rfl⟩ | ⟨rfl, rfl⟩ | ⟨rfl, rfl⟩ | ⟨rfl, rfl⟩ | ⟨rfl, rfl⟩ := hname <;>
    exact (List.cons.inj h).1.symm

/-- How a reading may begin. -/
theorem Reads.cases_escaped {escaped text : List Char} (h : Reads escaped text) :
    (escaped = [] ∧ text = []) ∨
      (∃ c escaped' text', c ≠ '&' ∧ escaped = c :: escaped' ∧ text = c :: text' ∧
        Reads escaped' text') ∨
      ∃ name c escaped' text', (name, c) ∈ references ∧ escaped = name ++ escaped' ∧
        text = c :: text' ∧ Reads escaped' text' := by
  cases h with
  | nil => exact .inl ⟨rfl, rfl⟩
  | @char c escaped text hc h =>
      exact .inr (.inl ⟨c, escaped, text, fun h => hc (h ▸ List.mem_cons_self), rfl, rfl, h⟩)
  | @reference name c escaped text hname h =>
      exact .inr (.inr ⟨name, c, escaped, text, hname, rfl, rfl, h⟩)

theorem reference_ne_nil {name : List Char} {c : Char} (hname : (name, c) ∈ references) :
    name ≠ [] := by
  rintro rfl
  simp [references] at hname

/-- A text has at most one reading. -/
theorem Reads.unique {escaped text text' : List Char} (h : Reads escaped text)
    (h' : Reads escaped text') : text = text' := by
  induction h generalizing text' with
  | nil =>
      obtain ⟨-, rfl⟩ | ⟨c, _, _, -, h, -⟩ | ⟨name, c, _, _, hname, h, -⟩ := h'.cases_escaped
      · rfl
      · cases h
      · exact absurd (List.append_eq_nil_iff.mp h.symm).1 (reference_ne_nil hname)
  | @char c escaped text hc _ ih =>
      have hamp : c ≠ '&' := fun h => hc (h ▸ List.mem_cons_self)
      obtain ⟨h, -⟩ | ⟨c', _, _, -, h, rfl, hrest⟩ | ⟨name, _, _, _, hname, h, -⟩ :=
        h'.cases_escaped
      · cases h
      · cases h
        rw [ih hrest]
      · exact absurd (reference_head hname h.symm) hamp
  | @reference name c escaped text hname _ ih =>
      obtain ⟨h, -⟩ | ⟨c', _, _, hamp, h, -⟩ | ⟨name', _, _, _, hname', h, rfl, hrest⟩ :=
        h'.cases_escaped
      · exact absurd (List.append_eq_nil_iff.mp h).1 (reference_ne_nil hname)
      · exact absurd (reference_head hname h) hamp
      · obtain ⟨rfl, rfl⟩ := reference_inj hname hname' h
        rw [ih hrest]

/-- And no markup begins or ends in it. -/
theorem Reads.no_markup {escaped text : List Char} (h : Reads escaped text) :
    '<' ∉ escaped ∧ '>' ∉ escaped ∧ '"' ∉ escaped := by
  induction h with
  | nil => simp
  | @char c escaped text hc _ ih =>
      simp only [List.mem_cons, List.not_mem_nil, or_false, not_or] at hc
      simp only [List.mem_cons, not_or]
      exact ⟨⟨Ne.symm hc.2.1, ih.1⟩, ⟨Ne.symm hc.2.2.1, ih.2.1⟩, ⟨Ne.symm hc.2.2.2.1, ih.2.2⟩⟩
  | @reference name c escaped text hname _ ih =>
      have hnone : '<' ∉ name ∧ '>' ∉ name ∧ '"' ∉ name := by
        simp only [references, List.mem_cons, Prod.mk.injEq, List.not_mem_nil, or_false] at hname
        obtain ⟨rfl, -⟩ | ⟨rfl, -⟩ | ⟨rfl, -⟩ | ⟨rfl, -⟩ | ⟨rfl, -⟩ := hname <;> decide
      simp only [List.mem_append, not_or]
      exact ⟨⟨hnone.1, ih.1⟩, ⟨hnone.2.1, ih.2.1⟩, ⟨hnone.2.2, ih.2.2⟩⟩

/-! ## The text of a table -/

def rowHtml (cells : List String) : String :=
  "<tr>" ++ String.join (cells.map fun cell => "<td>" ++ cell ++ "</td>") ++ "</tr>"

/-- A table with these texts between its tags. -/
def tableHtml (headers : List String) (body : List (List String)) : String :=
  "<table><thead><tr>" ++ String.join (headers.map fun header => "<th>" ++ header ++ "</th>") ++
    "</tr></thead><tbody>" ++ String.join (body.map rowHtml) ++ "</tbody></table>"

/-- A text between two tags that reads `text`. -/
def ReadsAs (escaped text : String) : Prop := Reads escaped.toList text.toList

/-- The HTML is a table with these header cells and, in each row, these cells. -/
def Shows (html : String) (headers : List String) (body : List (List String)) : Prop :=
  ∃ headers' body', html = tableHtml headers' body' ∧ List.Forall₂ ReadsAs headers' headers ∧
    List.Forall₂ (List.Forall₂ ReadsAs) body' body

theorem table_eq_tableHtml {first : Row} {rest : List Row} :
    table (first :: rest) = tableHtml (first.keys.map escape) ((first :: rest).map fun row =>
      first.keys.map fun column => escape ((row.get? column).elim "" SqlValue.pyStr)) := by
  have hrow : tableRow first.keys = fun row => rowHtml (first.keys.map fun column =>
      escape ((row.get? column).elim "" SqlValue.pyStr)) := by
    funext row
    dsimp only [tableRow, rowHtml]
    rw [List.map_map]
    rfl
  dsimp only [table, tableHtml]
  rw [List.map_map, List.map_map, hrow]
  rfl

/-! ## Counting cells -/

theorem toList_join (parts : List String) :
    (String.join parts).toList = parts.flatMap String.toList := by
  have hfold : ∀ (acc : String), (parts.foldl (fun r s => r ++ s) acc).toList =
      acc.toList ++ parts.flatMap String.toList := by
    induction parts with
    | nil => exact fun acc => (List.append_nil _).symm
    | cons part parts ih =>
        intro acc
        rw [List.foldl_cons, ih, String.toList_append, List.flatMap_cons, List.append_assoc]
  exact (hfold "").trans (List.nil_append _)

/-- How many tags a text begins. -/
def countLt (html : String) : Nat := html.toList.count '<'

theorem countLt_append (a b : String) : countLt (a ++ b) = countLt a + countLt b := by
  rw [countLt, String.toList_append, List.count_append]
  rfl

theorem countLt_join (parts : List String) :
    countLt (String.join parts) = (parts.map countLt).sum := by
  rw [countLt, toList_join, List.count_flatMap]
  rfl

/-- Copies of one number. -/
theorem sum_map_eq {α : Type} {f : α → Nat} {n : Nat} : ∀ {l : List α}, (∀ a ∈ l, f a = n) →
    (l.map f).sum = l.length * n
  | [], _ => (Nat.zero_mul n).symm
  | a :: l, h => by
      rw [List.map_cons, List.sum_cons, List.length_cons, Nat.succ_mul, h a List.mem_cons_self,
        sum_map_eq fun b hb => h b (List.mem_cons_of_mem a hb)]
      omega

theorem countLt_cells {cells : List String} (opening closing : String)
    (htags : countLt opening + countLt closing = 2) (hinert : ∀ cell ∈ cells, countLt cell = 0) :
    countLt (String.join (cells.map fun cell => opening ++ cell ++ closing)) =
      cells.length * 2 := by
  rw [countLt_join, List.map_map]
  refine sum_map_eq fun cell hcell => ?_
  simp only [Function.comp_apply, countLt_append, hinert cell hcell]
  omega

/-- The tags of a table with rows of one width. -/
theorem countLt_tableHtml {headers : List String} {body : List (List String)} {width : Nat}
    (hheaders : ∀ header ∈ headers, countLt header = 0)
    (hbody : ∀ cells ∈ body, cells.length = width ∧ ∀ cell ∈ cells, countLt cell = 0) :
    countLt (tableHtml headers body) =
      8 + headers.length * 2 + body.length * (2 + width * 2) := by
  have hrow : ∀ cells ∈ body, countLt (rowHtml cells) = 2 + width * 2 := by
    intro cells hcells
    obtain ⟨hwidth, hinert⟩ := hbody cells hcells
    have hcells : countLt (String.join (cells.map fun cell => "<td>" ++ cell ++ "</td>")) =
        cells.length * 2 := countLt_cells _ _ (by decide) hinert
    have hopen : countLt "<tr>" = 1 := by decide
    have hclose : countLt "</tr>" = 1 := by decide
    dsimp only [rowHtml]
    simp only [countLt_append, hcells, hopen, hclose, hwidth]
    omega
  have hhead : countLt (String.join (headers.map fun header => "<th>" ++ header ++ "</th>")) =
      headers.length * 2 := countLt_cells _ _ (by decide) hheaders
  have hrows : countLt (String.join (body.map rowHtml)) = body.length * (2 + width * 2) := by
    rw [countLt_join, List.map_map]
    exact sum_map_eq hrow
  have hopen : countLt "<table><thead><tr>" = 3 := by decide
  have hbetween : countLt "</tr></thead><tbody>" = 3 := by decide
  have hclose : countLt "</tbody></table>" = 2 := by decide
  dsimp only [tableHtml]
  simp only [countLt_append, hhead, hrows, hopen, hbetween, hclose]
  omega

theorem ReadsAs.countLt {escaped text : String} (h : ReadsAs escaped text) :
    countLt escaped = 0 :=
  List.count_eq_zero.mpr h.no_markup.1

theorem countLt_escape (s : String) : countLt (escape s) = 0 :=
  List.count_eq_zero.mpr (reads_escape s).no_markup.1

/-! ## From the result set to the table -/

variable {columns : List String} {result : List (List SqlValue)} {maxRows : Nat}
  {values : List SqlValue}

/-- The result set is converted, and the table of its rows shows the names of its columns and
the values of its first rows. -/
def ShowsResult (columns : List String) (result : List (List SqlValue)) (maxRows : Nat) : Prop :=
  ∃ queryResult, rowsFromCursorLimited columns result maxRows = .ok queryResult ∧
    Shows (table queryResult.rows) columns
      ((result.take maxRows).map fun values => values.map SqlValue.pyStr)

/-- The row of these values. -/
def rowOf (columns : List String) (values : List SqlValue) : Row :=
  OrderedDict.ofPairs (columns.zip values)

theorem rowsFromCursorLimited_eq (hwidth : ∀ values ∈ result, values.length = columns.length) :
    rowsFromCursorLimited columns result maxRows =
      .ok { rows := (result.take maxRows).map (rowOf columns) } := by
  have hzip : (result.take maxRows).mapM (zipRow columns) =
      .ok ((result.take maxRows).map (rowOf columns)) := by
    rw [mapM_eq_ok, List.forall₂_map_right_iff, List.forall₂_same]
    intro values hvalues
    have hlength := hwidth values (List.mem_of_mem_take hvalues)
    rw [zipRow, if_neg (by omega), if_neg (by omega)]
    rfl
  simp only [rowsFromCursorLimited, hzip]
  rfl

theorem map_fst_zip (hlength : values.length = columns.length) :
    (columns.zip values).map Prod.fst = columns :=
  List.map_fst_zip (Nat.le_of_eq hlength.symm)

theorem map_snd_zip (hlength : values.length = columns.length) :
    (columns.zip values).map Prod.snd = values :=
  List.map_snd_zip (Nat.le_of_eq hlength)

/-- A row has every name of a column, once. -/
theorem keys_rowOf (hlength : values.length = columns.length) :
    (rowOf columns values).keys.Perm columns.dedup := by
  refine (List.perm_ext_iff_of_nodup (rowOf columns values).nodup columns.nodup_dedup).mpr ?_
  intro name
  rw [List.mem_dedup]
  refine OrderedDict.mem_keys_ofPairs.trans ?_
  rw [map_fst_zip hlength]

theorem keys_rowOf_nodup (hlength : values.length = columns.length) (hnodup : columns.Nodup) :
    (rowOf columns values).keys = columns := by
  have hentries : (rowOf columns values).entries = columns.zip values :=
    OrderedDict.entries_ofPairs ((map_fst_zip hlength).symm ▸ hnodup)
  rw [OrderedDict.keys, hentries, map_fst_zip hlength]

/-- With distinct names a row has the value of every column. -/
theorem cells_rowOf (hlength : values.length = columns.length) (hnodup : columns.Nodup) :
    (columns.map fun column => ((rowOf columns values).get? column).elim "" SqlValue.pyStr) =
      values.map SqlValue.pyStr := by
  have hentries : (rowOf columns values).entries = columns.zip values :=
    OrderedDict.entries_ofPairs ((map_fst_zip hlength).symm ▸ hnodup)
  have hfst : ∀ g : String → String, columns.map g = (columns.zip values).map fun e => g e.1 := by
    intro g
    rw [← Function.comp_def, ← List.map_map, map_fst_zip hlength]
  have hsnd : ∀ g : SqlValue → String, values.map g = (columns.zip values).map fun e => g e.2 := by
    intro g
    rw [← Function.comp_def, ← List.map_map, map_snd_zip hlength]
  calc (columns.map fun column => ((rowOf columns values).get? column).elim "" SqlValue.pyStr)
      = (columns.zip values).map fun e =>
          ((rowOf columns values).get? e.1).elim "" SqlValue.pyStr := by
        exact hfst _
    _ = (columns.zip values).map fun e => e.2.pyStr := by
        refine List.map_congr_left fun e he => ?_
        rw [OrderedDict.get?_eq_some.mpr (hentries.symm ▸ he : (e.1, e.2) ∈ _)]
        rfl
    _ = values.map SqlValue.pyStr := by
        exact (hsnd _).symm

theorem exists_of_forall₂ {α β : Type} {R : α → β → Prop} {as : List α} {bs : List β}
    (h : List.Forall₂ R as bs) {a : α} (ha : a ∈ as) : ∃ b ∈ bs, R a b := by
  induction h with
  | nil => cases ha
  | @cons a' b as bs hab _ ih =>
      obtain rfl | ha := List.mem_cons.mp ha
      · exact ⟨b, List.mem_cons_self, hab⟩
      · obtain ⟨b', hb', hR⟩ := ih ha
        exact ⟨b', List.mem_cons_of_mem b hb', hR⟩

/-- A table that shows the result has as many tags as the result has cells. -/
theorem Shows.countLt {html : String} {headers : List String} {body : List (List String)}
    (h : Shows html headers body) (hbody : ∀ texts ∈ body, texts.length = headers.length) :
    countLt html = 8 + headers.length * 2 + body.length * (2 + headers.length * 2) := by
  obtain ⟨headers', body', rfl, hheaders, hrows⟩ := h
  have hinert : ∀ header ∈ headers', EarlyWarning.ResultTable.countLt header = 0 := by
    intro header hheader
    obtain ⟨text, -, hreads⟩ := exists_of_forall₂ hheaders hheader
    exact hreads.countLt
  have hcells : ∀ cells ∈ body', cells.length = headers.length ∧
      ∀ cell ∈ cells, EarlyWarning.ResultTable.countLt cell = 0 := by
    intro cells hcells
    obtain ⟨texts, htexts, hreads⟩ := exists_of_forall₂ hrows hcells
    refine ⟨hreads.length_eq.trans (hbody texts htexts), fun cell hcell => ?_⟩
    obtain ⟨text, -, hcell⟩ := exists_of_forall₂ hreads hcell
    exact hcell.countLt
  rw [countLt_tableHtml hinert hcells, hheaders.length_eq, hrows.length_eq]

/-- The table of some rows of the result, by what `rowOf` makes of them. -/
theorem table_rowOf {rest : List (List SqlValue)} :
    table ((values :: rest).map (rowOf columns)) =
      tableHtml ((rowOf columns values).keys.map escape) ((values :: rest).map fun values' =>
        (rowOf columns values).keys.map fun column =>
          escape (((rowOf columns values').get? column).elim "" SqlValue.pyStr)) := by
  rw [List.map_cons, table_eq_tableHtml, ← List.map_cons, List.map_map]
  rfl

/-- A table with the cells of all columns needs rows with all columns. -/
theorem nodup_of_shows {rest : List (List SqlValue)}
    (hwidth : ∀ values' ∈ values :: rest, values'.length = columns.length)
    (hshows : Shows (table ((values :: rest).map (rowOf columns))) columns
      ((values :: rest).map fun values' => values'.map SqlValue.pyStr)) : columns.Nodup := by
  have hshown : countLt (table ((values :: rest).map (rowOf columns))) =
      8 + columns.length * 2 + (values :: rest).length * (2 + columns.length * 2) := by
    rw [hshows.countLt, List.length_map]
    intro texts htexts
    obtain ⟨values', hvalues', rfl⟩ := List.mem_map.mp htexts
    rw [List.length_map, hwidth values' hvalues']
  have hwritten : countLt (table ((values :: rest).map (rowOf columns))) =
      8 + (rowOf columns values).keys.length * 2 +
        (values :: rest).length * (2 + (rowOf columns values).keys.length * 2) := by
    rw [table_rowOf, countLt_tableHtml, List.length_map, List.length_map]
    · intro header hheader
      obtain ⟨column, -, rfl⟩ := List.mem_map.mp hheader
      exact countLt_escape column
    · intro cells hcells
      obtain ⟨values', -, rfl⟩ := List.mem_map.mp hcells
      refine ⟨List.length_map _, fun cell hcell => ?_⟩
      obtain ⟨column, -, rfl⟩ := List.mem_map.mp hcell
      exact countLt_escape _
  have hperm := keys_rowOf (hwidth values List.mem_cons_self)
  have hlength : columns.dedup.length = columns.length := by
    rw [← hperm.length_eq]
    have hproduct := hwritten.symm.trans hshown
    rw [Nat.mul_add, Nat.mul_add, ← Nat.mul_assoc, ← Nat.mul_assoc] at hproduct
    have hsplit : ((values :: rest).length + 1) * (rowOf columns values).keys.length =
        ((values :: rest).length + 1) * columns.length := by
      rw [Nat.succ_mul, Nat.succ_mul]
      omega
    exact Nat.eq_of_mul_eq_mul_left (Nat.succ_pos _) hsplit
  rw [← (List.dedup_sublist columns).eq_of_length hlength]
  exact columns.nodup_dedup

/-- With distinct names the table has all of it. -/
theorem shows_of_nodup {rest : List (List SqlValue)}
    (hwidth : ∀ values' ∈ values :: rest, values'.length = columns.length)
    (hnodup : columns.Nodup) :
    Shows (table ((values :: rest).map (rowOf columns))) columns
      ((values :: rest).map fun values' => values'.map SqlValue.pyStr) := by
  refine ⟨_, _, table_rowOf, ?_, ?_⟩
  · rw [keys_rowOf_nodup (hwidth values List.mem_cons_self) hnodup,
      List.forall₂_map_left_iff, List.forall₂_same]
    exact fun column _ => reads_escape column
  · rw [List.forall₂_map_left_iff, List.forall₂_map_right_iff, List.forall₂_same]
    intro values' hvalues'
    rw [keys_rowOf_nodup (hwidth values List.mem_cons_self) hnodup,
      ← cells_rowOf (hwidth values' hvalues') hnodup, List.forall₂_map_left_iff,
      List.forall₂_map_right_iff, List.forall₂_same]
    exact fun column _ => reads_escape _

/-- **The result table.**  The table in the mail shows the result set exactly when no two of its
columns have the same name. -/
theorem table_shows (hrows : result ≠ []) (hmax : 0 < maxRows)
    (hwidth : ∀ values ∈ result, values.length = columns.length) :
    ShowsResult columns result maxRows ↔ columns.Nodup := by
  obtain ⟨values, rest, htake⟩ : ∃ values rest, result.take maxRows = values :: rest := by
    refine List.exists_cons_of_ne_nil fun hnil => ?_
    obtain h | h := List.take_eq_nil_iff.mp hnil
    · omega
    · exact hrows h
  have hwidth' : ∀ values' ∈ values :: rest, values'.length = columns.length := fun values' h =>
    hwidth values' (List.mem_of_mem_take (htake ▸ h))
  rw [ShowsResult, rowsFromCursorLimited_eq hwidth, htake]
  constructor
  · rintro ⟨queryResult, hquery, hshows⟩
    cases hquery
    exact nodup_of_shows hwidth' hshows
  · intro hnodup
    exact ⟨_, rfl, shows_of_nodup hwidth' hnodup⟩

/-- Two columns and a row whose text is markup. -/
theorem table_shows_order : ShowsResult ["id", "<b>"] [[.int 7, .str "\"a\" & b"]] 500 :=
  (table_shows (List.cons_ne_nil _ _) (by decide) (by decide)).mpr (by decide)

/-- The ids of an order and of its customer, as a join names them: the table has one column. -/
theorem joined_table :
    rowsFromCursorLimited ["id", "id"] [[.int 7, .int 42]] 500 =
        .ok { rows := [rowOf ["id"] [.int 42]] } ∧
      ¬ ShowsResult ["id", "id"] [[.int 7, .int 42]] 500 := by
  refine ⟨by decide, fun hshows => ?_⟩
  obtain ⟨queryResult, hquery, hshows⟩ := hshows
  rw [rowsFromCursorLimited_eq (by decide)] at hquery
  cases hquery
  have hnodup : ["id", "id"].Nodup := @nodup_of_shows _ _ [] (by decide) hshows
  exact absurd hnodup (by decide)

end EarlyWarning.ResultTable
