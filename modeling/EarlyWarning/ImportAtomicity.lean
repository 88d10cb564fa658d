/-
# `ImportAtomicity` — an import is all or nothing, or status 500

`import_rules_json` answers with the page and its error, and imports nothing; or it imports every
rule of the document.  The third answer is an exception that nobody catches: the handler turns
`ValueError` into the page, but not the `RecursionError` of a document that is nested too deep,
nor the `OverflowError` of an infinite number, and the transaction is outside of its `try`, where
SQLite refuses a lone half of a surrogate pair and an integer of more than 64 bits.

`import_all_or_nothing` says exactly when.
-/
import EarlyWarning.RuleStore
import Mathlib.Data.Fin.VecNotation

namespace EarlyWarning.RuleStore

open Lib

variable {φ : Type} {libs : RuleLibraries φ} {db db' : RuleDb} {bytes : ByteArray}
  {times : Nat → DateTime × DateTime} {rules : List (Json φ)} {payload : Json φ}

/-! ## The rules of a document -/

/-- The list of the rules of a payload, when it has one of at most 500. -/
def payloadRules (libs : RuleLibraries φ) (payload : Json φ) : Option (List (Json φ)) :=
  match payload with
  | .dict fields =>
      if (Json.get? fields "version").any (Json.isOne libs.floats) then
        match Json.get? fields "rules" with
        | some (.list rules) => if rules.length ≤ maxImportedRules then some rules else none
        | _ => none
      else none
  | _ => none

/-- The rules of an uploaded file. -/
def documentRules (libs : RuleLibraries φ) (bytes : ByteArray) : Option (List (Json φ)) :=
  match readUpload libs bytes with
  | .payload payload => payloadRules libs payload
  | _ => none

/-- The import redirects and its rules are stored, or it shows the page and nothing is. -/
def AllOrNothing (libs : RuleLibraries φ) (db : RuleDb) (bytes : ByteArray)
    (result : Outcome × RuleDb) : Prop :=
  (∃ rules rows, documentRules libs bytes = some rules ∧ AllImportable libs db.sources rules ∧
      result = (.redirect s!"/rules?imported={rules.length}",
        { db with rules := db.rules ++ rows }) ∧
      rows.map AlertRule.values = importedRules libs db.sources rules) ∨
    ∃ error, result = (.page error, db)

/-- There is room for the texts and the window of a rule. -/
def Fits (values : RuleValues) : Prop :=
  (∀ t ∈ values.texts, (PyText.encode? t).isSome) ∧ values.suppressionWindowHours < 2 ^ 63

/-- No exception is left to the server. -/
structure Handled (libs : RuleLibraries φ) (db : RuleDb) (bytes : ByteArray) : Prop where
  /-- the document is not nested too deep -/
  depth : readUpload libs bytes ≠ .tooDeep
  /-- no infinite number is reached -/
  finite : ∀ rules, documentRules libs bytes = some rules → ¬ SomeOverflow libs db.sources rules
  /-- when every rule is importable, there is room for every rule -/
  fits : ∀ rules, documentRules libs bytes = some rules → AllImportable libs db.sources rules →
    ∀ values ∈ importedRules libs db.sources rules, Fits values

/-! ## The transaction -/

theorem insertRules_isOk {rules : List RuleValues} :
    ∀ (db : RuleDb) (times : Nat → DateTime × DateTime),
    (∀ values ∈ rules, values.dataSourceId ∈ db.sources.map SqlDataSource.id) →
    ((∃ db', insertRules db rules times = .ok db') ↔ ∀ values ∈ rules, values.Storable) := by
  induction rules with
  | nil => exact fun _ _ _ => ⟨fun _ => by simp, fun _ => ⟨_, rfl⟩⟩
  | cons values rules ih =>
      intro db times hsources
      have hlater : ∀ row, (∃ db', insertRules { db with rules := db.rules ++ [row] } rules
          (fun i => times (i + 1)) = .ok db') ↔ ∀ values ∈ rules, values.Storable := fun row =>
        ih _ _ fun v hv => hsources v (List.mem_cons_of_mem _ hv)
      constructor
      · rintro ⟨db', hok⟩
        obtain ⟨mid, hmid, hrest⟩ := bind_eq_ok.mp hok
        obtain ⟨row, hrow, -, rfl⟩ := insertRule_eq_ok.mp hmid
        exact List.forall_mem_cons.mpr ⟨hrow.storable, (hlater row).mp ⟨db', hrest⟩⟩
      · intro hall
        obtain ⟨hfirst, hrest⟩ := List.forall_mem_cons.mp hall
        obtain ⟨row, hrow⟩ := (RuleValues.store_isOk
          (newRule (nextId (db.rules.map AlertRule.id)) (times 0).1 (times 0).2)).mpr hfirst
        have hmid : insertRule db values (times 0) =
            .ok { db with rules := db.rules ++ [row] } :=
          insertRule_eq_ok.mpr ⟨row, RuleValues.store_eq_ok.mp hrow,
            hsources values List.mem_cons_self, rfl⟩
        obtain ⟨db', hdb'⟩ := (hlater row).mpr hrest
        exact ⟨db', bind_eq_ok.mpr ⟨_, hmid, hdb'⟩⟩

theorem storable_iff {values : RuleValues} (h : values.Valid libs db.sources)
    (hwindow : 1 ≤ values.suppressionWindowHours) : values.Storable ↔ Fits values := by
  constructor
  · intro hstorable
    exact ⟨hstorable.texts, hstorable.suppressionWindowHours.2⟩
  · rintro ⟨htexts, hlt⟩
    obtain ⟨hquery, hqueryLe⟩ := h.queryTimeoutSeconds
    obtain ⟨hmaxRows, hmaxRowsLe⟩ := h.maxRows
    refine ⟨htexts, ⟨?_, ?_⟩, ⟨?_, ?_⟩, ⟨?_, hlt⟩⟩ <;> omega

/-! ## The answers -/

theorem importedRules_window (h : AllImportable libs db.sources rules) :
    ∀ values ∈ importedRules libs db.sources rules,
      values.Valid libs db.sources ∧ 1 ≤ values.suppressionWindowHours := by
  intro values hvalues
  obtain ⟨data, hdata, rfl⟩ := List.mem_map.mp hvalues
  obtain ⟨fields, rfl, himportable⟩ := h data hdata
  refine ⟨himportable.valid, ?_⟩
  obtain ⟨window, hwindow, hpos⟩ := himportable.suppressionWindowHours
  show 1 ≤ importedInt libs fields "suppression_window_hours" 24
  rwa [importedInt_eq hwindow]

/-- What a payload is built to: its rules, or an error of the page. -/
theorem buildImportedRules_cases (libs : RuleLibraries φ) (sources : List SqlDataSource)
    (payload : Json φ) :
    (∃ rules, payloadRules libs payload = some rules ∧
      buildImportedRules libs sources payload = importRules libs sources 1 rules) ∨
    (payloadRules libs payload = none ∧
      ∃ message, buildImportedRules libs sources payload = .error (.valueError message)) := by
  cases payload with
  | dict fields =>
      simp only [buildImportedRules, payloadRules]
      cases hversion : (Json.get? fields "version").any (Json.isOne libs.floats) with
      | false => exact .inr ⟨rfl, _, rfl⟩
      | true =>
          cases hrules : Json.get? fields "rules" with
          | none => exact .inr ⟨rfl, _, rfl⟩
          | some value =>
              cases value with
              | list rules =>
                  by_cases hshort : rules.length ≤ maxImportedRules
                  · exact .inl ⟨rules, if_pos hshort, if_neg (Nat.not_lt.mpr hshort)⟩
                  · exact .inr ⟨if_neg hshort, s!"导入规则数量不能超过 {maxImportedRules} 条",
                      if_pos (Nat.lt_of_not_le hshort)⟩
              | _ => exact .inr ⟨rfl, _, rfl⟩
  | _ => exact .inr ⟨rfl, _, rfl⟩

theorem not_allOrNothing_raised {error : ServerError} :
    ¬ AllOrNothing libs db bytes (.raised error, db) := by
  rintro (⟨rules, rows, -, -, hresult, -⟩ | ⟨message, hresult⟩)
  · cases hresult
  · cases hresult

/-- The import of a document whose rules are read. -/
theorem importRulesJson_rules (hpayload : readUpload libs bytes = .payload payload)
    (hrules : payloadRules libs payload = some rules) :
    AllOrNothing libs db bytes (importRulesJson libs db bytes times) ↔
      ¬ SomeOverflow libs db.sources rules ∧
        (AllImportable libs db.sources rules →
          ∀ values ∈ importedRules libs db.sources rules, Fits values) := by
  have hdocument : documentRules libs bytes = some rules := by
    rw [documentRules, hpayload]
    exact hrules
  have hbuild : buildImportedRules libs db.sources payload = importRules libs db.sources 1 rules := by
    rcases buildImportedRules_cases libs db.sources payload with
      ⟨rules', hrules', hbuild⟩ | ⟨hnone, -⟩
    · rw [hrules] at hrules'
      cases hrules'
      exact hbuild
    · rw [hrules] at hnone
      cases hnone
  simp only [importRulesJson, hpayload, hbuild]
  cases himport : importRules libs db.sources 1 rules with
  | error error =>
      have hnot : ¬ AllImportable libs db.sources rules := by
        intro hall
        rw [importRules_eq_ok.mpr ⟨hall, rfl⟩] at himport
        cases himport
      cases error with
      | valueError message =>
          refine iff_of_true (.inr ⟨message, rfl⟩) ⟨?_, fun hall => absurd hall hnot⟩
          intro hoverflow
          rw [importRules_overflow.mpr hoverflow] at himport
          cases himport
      | overflowError =>
          refine iff_of_false not_allOrNothing_raised ?_
          rintro ⟨hfinite, -⟩
          exact hfinite (importRules_overflow.mp himport)
  | ok imported =>
      obtain ⟨hall, rfl⟩ := importRules_eq_ok.mp himport
      have hwindow := importedRules_window hall
      have hfinite : ¬ SomeOverflow libs db.sources rules := by
        intro hoverflow
        rw [importRules_overflow.mpr hoverflow] at himport
        cases himport
      have hroom : (∀ values ∈ importedRules libs db.sources rules, values.Storable) ↔
          ∀ values ∈ importedRules libs db.sources rules, Fits values :=
        forall₂_congr fun values hvalues =>
          storable_iff (hwindow values hvalues).1 (hwindow values hvalues).2
      show AllOrNothing libs db bytes (commit db
        s!"/rules?imported={(importedRules libs db.sources rules).length}"
        (insertRules db (importedRules libs db.sources rules) times)) ↔ _
      rw [and_iff_right hfinite, imp_iff_right hall, ← hroom,
        ← insertRules_isOk db times fun values hvalues => (hwindow values hvalues).1.dataSource]
      cases hinsert : insertRules db (importedRules libs db.sources rules) times with
      | error error =>
          refine iff_of_false not_allOrNothing_raised ?_
          rintro ⟨db', hdb'⟩
          cases hdb'
      | ok db' =>
          obtain ⟨hsources, rows, hrows, hvalues⟩ := insertRules_sources hinsert
          refine iff_of_true (.inl ⟨rules, rows, hdocument, hall, ?_, hvalues⟩) ⟨db', rfl⟩
          have hdb : db' = { db with rules := db.rules ++ rows } := by
            cases db'
            cases hsources
            cases hrows
            rfl
          rw [hdb, importedRules, List.length_map]
          rfl

/-- An import stores every rule of the document and redirects, or stores none and shows the page,
exactly when the document is not nested too deep, no infinite number is reached, and there is room
for the rules when all of them are importable. -/
theorem import_all_or_nothing (libs : RuleLibraries φ) (db : RuleDb) (bytes : ByteArray)
    (times : Nat → DateTime × DateTime) :
    AllOrNothing libs db bytes (importRulesJson libs db bytes times) ↔ Handled libs db bytes := by
  have hquiet : documentRules libs bytes = none → readUpload libs bytes ≠ .tooDeep →
      Handled libs db bytes := by
    intro hnone hdepth
    refine ⟨hdepth, fun rules hrules => ?_, fun rules hrules => ?_⟩
    · rw [hnone] at hrules
      cases hrules
    · rw [hnone] at hrules
      cases hrules
  cases hread : readUpload libs bytes with
  | invalid error =>
      have hanswer : importRulesJson libs db bytes times = (.page error, db) := by
        rw [importRulesJson, hread]
      rw [hanswer]
      refine iff_of_true (.inr ⟨error, rfl⟩) (hquiet ?_ ?_)
      · rw [documentRules, hread]
      · rw [hread]
        intro heq
        cases heq
  | tooDeep =>
      have hanswer : importRulesJson libs db bytes times = (.raised .recursionError, db) := by
        rw [importRulesJson, hread]
      rw [hanswer]
      exact iff_of_false not_allOrNothing_raised fun h => h.depth hread
  | payload payload =>
      have hdepth : readUpload libs bytes ≠ .tooDeep := by
        rw [hread]
        intro heq
        cases heq
      have hdocument : documentRules libs bytes = payloadRules libs payload := by
        rw [documentRules, hread]
      cases hrules : payloadRules libs payload with
      | none =>
          rcases buildImportedRules_cases libs db.sources payload with
            ⟨rules, hsome, -⟩ | ⟨-, message, hbuild⟩
          · rw [hrules] at hsome
            cases hsome
          · have hanswer : importRulesJson libs db bytes times = (.page message, db) := by
              simp only [importRulesJson, hread, hbuild]
            rw [hanswer]
            exact iff_of_true (.inr ⟨message, rfl⟩) (hquiet (hdocument.trans hrules) hdepth)
      | some rules =>
          rw [importRulesJson_rules hread hrules]
          rw [hrules] at hdocument
          constructor
          · rintro ⟨hfinite, hfits⟩
            refine ⟨hdepth, fun rules' hrules' => ?_, fun rules' hrules' => ?_⟩
            · rw [hdocument] at hrules'
              cases hrules'
              exact hfinite
            · rw [hdocument] at hrules'
              cases hrules'
              exact hfits
          · intro h
            exact ⟨h.finite rules hdocument, h.fits rules hdocument⟩

/-! ## An infinite timeout -/

/-- The floating point numbers that a document without literals of them has. -/
inductive Special
  | nan
  | inf
  | negInf
deriving DecidableEq

def specialFloats : Json.Floats Special where
  parse _ := .nan
  nan := .nan
  inf := .inf
  negInf := .negInf
  toInt
    | .nan => .error .notANumber
    | .inf | .negInf => .error .overflowError
  isOne _ := false
  truth _ := true
  repr
    | .nan => "nan".toList
    | .inf => "inf".toList
    | .negInf => "-inf".toList

/-- Every query and every cron expression is accepted. -/
def plainLibraries : RuleLibraries Special where
  floats := specialFloats
  isPrintable c := 0x20 ≤ c.toNat ∧ c.toNat < 0x7f
  nesting := 100
  parseSelect _ := .ok ()
  fromCrontab _ := true

def mainSource : SqlDataSource where
  id := 1
  name := "main"
  host := "db"
  database := "app"
  username := "sa"
  encryptedPassword := "secret"

def oneSource : RuleDb := ⟨[mainSource], []⟩

def infiniteTimeout : String :=
  "\x7b\"version\":1,\"rules\":[\x7b\"name\":\"a\",\"data_source_name\":\"main\"," ++
    "\"sql_text\":\"select 1\",\"cron_expression\":\"* * * * *\",\"recipients\":\"a@b.c\"," ++
    "\"query_timeout_seconds\":Infinity\x7d]\x7d"

/-- The document is read, and an infinite number is reached in it. -/
def reachesInfinity (libs : RuleLibraries φ) (sources : List SqlDataSource)
    (loaded : Except Json.LoadError (Json φ)) : Bool :=
  match loaded with
  | .error _ => false
  | .ok payload =>
      match buildImportedRules libs sources payload with
      | .error .overflowError => true
      | _ => false

theorem reachesInfinity_eq_true {sources : List SqlDataSource}
    {loaded : Except Json.LoadError (Json φ)} (h : reachesInfinity libs sources loaded = true) :
    ∃ payload, loaded = .ok payload ∧
      buildImportedRules libs sources payload = .error .overflowError := by
  simp only [reachesInfinity] at h
  split at h
  case h_1 => cases h
  case h_2 payload =>
    split at h
    case h_1 hbuild => exact ⟨payload, rfl, hbuild⟩
    case h_2 => cases h

theorem importRulesJson_overflow (hread : readUpload libs bytes = .payload payload)
    (hbuild : buildImportedRules libs db.sources payload = .error .overflowError) :
    importRulesJson libs db bytes times = (.raised .overflowError, db) := by
  simp only [importRulesJson, hread, hbuild]

theorem infinite_timeout :
    importRulesJson plainLibraries oneSource infiniteTimeout.toUTF8 (fun _ => (0, 0)) =
        (.raised .overflowError, oneSource) ∧
      ¬ AllOrNothing plainLibraries oneSource infiniteTimeout.toUTF8
        (importRulesJson plainLibraries oneSource infiniteTimeout.toUTF8 fun _ => (0, 0)) := by
  have hinfinity : reachesInfinity plainLibraries oneSource.sources
      (Json.loads plainLibraries.floats plainLibraries.nesting (.ofString infiniteTimeout)) =
        true := by
    decide +kernel
  have hlength : 4 * (PyText.ofString infiniteTimeout).length ≤ maxRuleImportBytes := by
    decide +kernel
  obtain ⟨payload, hloads, hbuild⟩ := reachesInfinity_eq_true hinfinity
  have hread : readUpload plainLibraries infiniteTimeout.toUTF8 = .payload payload :=
    readUpload_payload (Nat.le_trans (PyText.utf8ByteSize_le rfl) hlength) hloads
  have hanswer : importRulesJson plainLibraries oneSource infiniteTimeout.toUTF8
      (fun _ => (0, 0)) = (.raised .overflowError, oneSource) :=
    importRulesJson_overflow hread hbuild
  refine ⟨hanswer, ?_⟩
  rw [hanswer]
  exact not_allOrNothing_raised

end EarlyWarning.RuleStore
