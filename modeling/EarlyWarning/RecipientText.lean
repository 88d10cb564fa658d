/-
# `RecipientText` — who is a recipient, for the form and for the executor

`_has_recipient_text` of the routes replaces semicolons and splits at commas;
`_parse_recipients` of the executor splits at both and drops what is blank.  The one accepts a
text exactly when the other finds an address in it (`hasRecipientText_iff`), so a stored rule has
somebody to write to, except for a row that names nobody (`recipients_agree`).
-/
import EarlyWarning.MessageBatch
import EarlyWarning.RuleStore

namespace EarlyWarning

open Lib

/-! ## The two splitters -/

/-- `_parse_recipients`, of any text. -/
def parseRecipientText (value : PyText) : List PyText :=
  ((value.splitOnP fun c => c = .char ',' || c = .char ';').map PyText.strip).filter (· ≠ [])

/-- `value.replace(";", ",").split(",")` -/
def commaPieces (value : PyText) : List PyText :=
  (value.map fun c => if c = .char ';' then .char ',' else c).splitOnP (· = .char ',')

variable {value : PyText} {s : String} {row : Row} {rule : AlertRule} {rows : List Row}
  {exec : Libraries} {exc : PyExc}

theorem strip_eq_nil : PyText.strip value = [] ↔ ∀ c ∈ value, PyText.isSpace c = true := by
  rw [PyText.strip, List.rdropWhile_eq_nil_iff]
  constructor
  · intro h
    refine List.dropWhile_eq_nil_iff.mp ?_
    by_contra hne
    have hpos := List.length_pos_of_ne_nil hne
    exact List.dropWhile_get_zero_not PyText.isSpace value hpos (h _ (List.getElem_mem hpos))
  · intro h c hc
    exact h c ((List.dropWhile_sublist _).mem hc)

/-- The splitter of the routes, as they write it: a comma is no more blank than a semicolon. -/
theorem hasRecipientText_eq (value : PyText) :
    hasRecipientText value = (commaPieces value).any fun recipient =>
      PyText.strip recipient ≠ [] := by
  have hsep : (fun c => decide (c = PyChar.char ',')) ∘
      (fun c => if c = PyChar.char ';' then PyChar.char ',' else c) =
        fun c => decide (c = .char ',') || decide (c = .char ';') := by
    funext c
    by_cases h : c = .char ';'
    · simp [h]
    · simp [h]
  have hblank : ∀ piece : PyText, PyText.strip
      (piece.map fun c => if c = PyChar.char ';' then PyChar.char ',' else c) = [] ↔
        PyText.strip piece = [] := by
    intro piece
    have hspace : ∀ c : PyChar,
        PyText.isSpace (if c = .char ';' then .char ',' else c) = PyText.isSpace c := by
      intro c
      split
      case isTrue h =>
        rw [h]
        decide
      case isFalse => rfl
    simp only [strip_eq_nil, List.forall_mem_map, hspace]
  rw [hasRecipientText, commaPieces, PyText.splitOnP_map, hsep, List.any_map]
  refine congrArg (List.any _) (funext fun piece => ?_)
  simp only [Function.comp_apply, ne_eq, hblank]

theorem hasRecipientText_iff (value : PyText) :
    hasRecipientText value = true ↔ parseRecipientText value ≠ [] := by
  rw [hasRecipientText, List.any_eq_true, parseRecipientText, Ne, List.filter_eq_nil_iff]
  simp

theorem parseRecipientText_ofString (s : String) :
    parseRecipientText (.ofString s) = (parseRecipients s).map PyText.ofString := by
  have hstrip : PyText.strip ∘ PyText.ofString = PyText.ofString ∘ PyStr.strip := by
    funext piece
    rw [Function.comp_apply, Function.comp_apply, PyText.strip_ofString]
  have hblank : (fun t => decide (t ≠ [])) ∘ PyText.ofString = fun piece => decide (piece ≠ "") := by
    funext piece
    simp
  rw [parseRecipientText, recipientPieces_ofString, List.map_map, hstrip, ← List.map_map,
    List.filter_map, hblank]
  rfl

/-! ## A pass over a stored rule -/

/-- The row names nobody in the field: its value is missing, `None` or without an address. -/
def NamesNobody (row : Row) (fieldName : String) : Prop :=
  row.value fieldName = .none ∨ hasRecipientText (.ofString (row.value fieldName).pyStr) = false

theorem hasRecipientText_eq_false : hasRecipientText (.ofString s) = false ↔
    parseRecipients s = [] := by
  rw [← Bool.not_eq_true, hasRecipientText_ofString, not_not]

theorem rowAddresses_eq_nil {fieldName fixed : String}
    (h : rowAddresses row fieldName fixed = [])
    (hsome : parseRecipients fixed ≠ [] ∨ fieldName ≠ "") :
    hasRecipientText (.ofString fixed) = false ∧ NamesNobody row fieldName := by
  rw [rowAddresses] at h
  split at h
  case isTrue hne => exact absurd h hne
  case isFalse hnone =>
    refine ⟨hasRecipientText_eq_false.mpr h, ?_⟩
    have hfield : fieldName ≠ "" := hsome.resolve_left fun hne => hne h
    rw [not_not, rowRecipients, if_neg hfield] at hnone
    split at hnone
    case h_1 hvalue => exact .inl hvalue
    case h_2 => exact .inr (hasRecipientText_eq_false.mpr hnone)

/-- Why the messages of a summary cannot be built. -/
theorem buildMessages_summary_error (hmode : rule.sendMode = .summary)
    (hrecipients : parseRecipients rule.recipients ≠ [])
    (h : buildMessages exec rule rows = .error exc) :
    renderSummary exec.jinja rule.subjectTemplate rule.bodyTemplate rows
      (messageContext rule rows) = .error exc := by
  simp only [buildMessages, hmode] at h
  rcases bind_eq_error.mp h with h | ⟨message, -, h⟩
  · rw [buildSummaryMessage_eq, if_neg hrecipients] at h
    split at h
    case h_1 hrendered =>
      cases h
      exact hrendered
    case h_2 => cases h
  · cases h

/-- Why the messages of the rows cannot be built. -/
theorem buildMessages_perRow_error (hmode : rule.sendMode = .perRow)
    (h : buildMessages exec rule rows = .error exc) :
    ∃ row ∈ rows,
      renderPerRow exec.jinja rule.subjectTemplate rule.bodyTemplate row
          (messageContext rule rows) = .error exc ∨
        exc = valueError "recipients must not be empty" ∧
          rowAddresses row rule.dynamicRecipientField rule.recipients = [] := by
  simp only [buildMessages, hmode] at h
  obtain ⟨row, hrow, h⟩ := mapM_eq_error h
  refine ⟨row, hrow, ?_⟩
  rw [buildRowMessage_eq] at h
  split at h
  case h_1 hrendered =>
    cases h
    exact .inl hrendered
  case h_2 =>
    split at h
    case isTrue hnone =>
      cases h
      exact .inr ⟨rfl, hnone⟩
    case isFalse => cases h

/-- **The form and the executor agree on recipients.**  So what a stored rule fails with is an
exception of its templates, or one row names nobody and the rule has no fixed recipient. -/
theorem recipients_agree {φ : Type} (libs : RuleLibraries φ) (requests : List RuleStore.Request)
    (exec : Libraries) :
    (∀ value : PyText,
      hasRecipientText value =
          ((commaPieces value).any fun recipient => PyText.strip recipient ≠ []) ∧
        (hasRecipientText value = true ↔ parseRecipientText value ≠ [])) ∧
    ∀ rule ∈ (RuleStore.runAll libs requests).rules, ∀ rows exc,
      buildMessages exec rule rows = .error exc →
        match rule.sendMode with
        | .summary => renderSummary exec.jinja rule.subjectTemplate rule.bodyTemplate rows
            (messageContext rule rows) = .error exc
        | .perRow => ∃ row ∈ rows,
            renderPerRow exec.jinja rule.subjectTemplate rule.bodyTemplate row
                (messageContext rule rows) = .error exc ∨
              exc = valueError "recipients must not be empty" ∧
                NamesNobody row rule.dynamicRecipientField ∧
                hasRecipientText (.ofString rule.recipients) = false := by
  refine ⟨fun value => ⟨hasRecipientText_eq value, hasRecipientText_iff value⟩,
    fun rule hrule rows exc h => ?_⟩
  have hok := RuleStore.ruleOk_of_valid ((RuleStore.runAll_inv requests).valid rule hrule)
  cases hmode : rule.sendMode with
  | summary =>
      refine buildMessages_summary_error hmode ?_ h
      exact hok.recipients.resolve_right fun hne => hne (hok.summary hmode)
  | perRow =>
      obtain ⟨row, hrow, hrendered | ⟨rfl, hnone⟩⟩ := buildMessages_perRow_error hmode h
      · exact ⟨row, hrow, .inl hrendered⟩
      · obtain ⟨hfixed, hnobody⟩ := rowAddresses_eq_nil hnone hok.recipients
        exact ⟨row, hrow, .inr ⟨rfl, hnobody, hfixed⟩⟩

end EarlyWarning
