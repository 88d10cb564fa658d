/-
# `RuleSerial` — when the requests might as well have come one after the other

A run of `RuleProtocol` in which no transaction writes over a change that its request has not
seen.  `serializable`: the tables and the answers are those of `RuleStore`, with the accepted
requests in the order of their transactions; so every rule is one that the executor can run.

Nothing in the handlers looks for such a change, and `mixed_forms` is a run with one.  The
requests that create a rule or a data source need no care: the keys are in their way when the
data source has gone, or the name is taken.
-/
import EarlyWarning.RuleProtocol

namespace EarlyWarning.RuleProtocol

open Lib EarlyWarning.RuleStore

variable {φ ι : Type} [DecidableEq ι] {libs : RuleLibraries φ} {requests : ι → Request}
  {s t : State ι} {i : ι} {db db' : RuleDb} {rule loaded new : AlertRule}
  {source : SqlDataSource} {times : DateTime × DateTime} {phase : Phase} {touched : Bool}

/-! ## One after the other -/

/-- What the request has read is still so: the row is the one it has loaded, the data sources
that an import names are the same, and the one to delete is there. -/
def upToDate (libs : RuleLibraries φ) (db : RuleDb) : Request → Phase → Bool
  | .updateRule _ _ _, .updating rule _ | .archiveRule _ _, .loadedRule rule => rule ∈ db.rules
  | .updateSource _ _, .saving source _ => source ∈ db.sources
  | .importRules bytes _, .importing rules => checkImport libs db bytes = .importing rules
  | .deleteSource _, .deleting source => source.id ∈ db.sources.map SqlDataSource.id
  | _, _ => true

/-- A transaction writes over nothing that its request has not seen. -/
def Undisturbed (libs : RuleLibraries φ) (requests : ι → Request) (s : State ι) : Label ι → Prop
  | .write i _ => upToDate libs s.db (requests i) (s.phase i) = true
  | .load _ | .check _ => True

omit [DecidableEq ι] in
instance (s : State ι) (label : Label ι) : Decidable (Undisturbed libs requests s label) :=
  match label with
  | .write _ _ => inferInstanceAs (Decidable (_ = true))
  | .load _ | .check _ => isTrue trivial

/-- The request whose step it is. -/
def Label.request : Label ι → ι
  | .load i | .check i | .write i _ => i

/-- The request whose transaction a step is. -/
def Label.writer : Label ι → Option ι
  | .write i _ => some i
  | .load _ | .check _ => none

def Phase.isAccepted : Phase → Bool
  | .finished (.redirect _) => true
  | _ => false

/-- The requests that are accepted in `s`, in the order of their transactions among the steps. -/
def transactions (labels : List (Label ι)) (s : State ι) : List ι :=
  (labels.filterMap Label.writer).filter fun i => (s.phase i).isAccepted

/-- The tables and the answers are those of the requests of `order`, each handled to its end
before the next one comes. -/
structure Serial (libs : RuleLibraries φ) (requests : ι → Request) (s : State ι) (order : List ι) :
    Prop where
  once : order.Nodup
  accepted : ∀ i, i ∈ order ↔ (s.phase i).Accepted
  tables : s.db = runAll libs (order.map requests)
  answers : ∀ k i, order[k]? = some i → s.phase i =
    .finished (handle libs (runAll libs ((order.take k).map requests)) (requests i)).1

theorem validateSource_sources {sources sources' : List SqlDataSource} {t : PyText} {id : Nat}
    (h : validateSource sources t = .ok id) (hid : id ∈ sources'.map SqlDataSource.id) :
    validateSource sources' t = .ok id := by
  simp only [validateSource] at h ⊢
  split at h
  case h_1 => cases h
  case h_2 n hn =>
    split at h
    case h_1 => cases h
    case h_2 => cases h
    case h_3 source hsource =>
      cases h
      obtain ⟨hint, hloaded⟩ := getSource_loaded hsource
      obtain ⟨other, hother, hsame⟩ := List.mem_map.mp hid
      cases hfind : sources'.find? fun source => source.id = n with
      | none =>
          have hne := List.find?_eq_none.mp hfind other hother
          simp [hsame, hloaded] at hne
      | some found =>
          have hfound : (found.id : Int) = n := by simpa using List.find?_some hfind
          simp only [getSource, if_pos hint, hfind]
          rw [Int.ofNat_inj.mp (hfound.trans hloaded.symm)]

/-- A form stays valid as long as its data source is there. -/
theorem validateRuleForm_sources {sources sources' : List SqlDataSource} {form : RuleForm}
    {validated : ValidatedForm} (h : validateRuleForm libs sources form = .ok validated)
    (hid : validated.sourceId ∈ sources'.map SqlDataSource.id) :
    validateRuleForm libs sources' form = .ok validated := by
  simp only [validateRuleForm] at h ⊢
  split at h
  case h_1 => cases h
  case h_2 =>
    split at h
    case h_1 => cases h
    case h_2 =>
      split at h
      case isTrue => cases h
      case isFalse hdynamic =>
        split at h
        case isTrue => cases h
        case isFalse hrecipients =>
          split at h
          case isTrue => cases h
          case isFalse hcron =>
            split at h
            case h_1 => cases h
            case h_2 sourceId hsource =>
              split at h
              case h_1 => cases h
              case h_2 hsuppression =>
                cases h
                rw [if_neg hdynamic, if_neg hrecipients, if_neg hcron,
                  validateSource_sources hsource hid]

theorem find?_of_nodup {α : Type} {key : α → Nat} {rows : List α} {row : α} {p : α → Bool}
    (hnodup : (rows.map key).Nodup) (hmem : row ∈ rows)
    (hp : ∀ other, p other = true ↔ key other = key row) : rows.find? p = some row := by
  cases hfind : rows.find? p with
  | none => exact absurd ((hp row).mpr rfl) (List.find?_eq_none.mp hfind row hmem)
  | some found =>
      have hsame := (hp found).mp (List.find?_some hfind)
      rw [List.inj_on_of_nodup_map hnodup (List.mem_of_find?_eq_some hfind) hmem hsame]

theorem flushRule_loaded (hid : new.id = loaded.id) (hcreated : new.createdAt = loaded.createdAt) :
    flushRule loaded new loaded = new := by
  simp only [flushRule, RuleVersions.flushRule, flushed_loaded, ← hid, ← hcreated]

theorem flushSource_loaded {loaded new : SqlDataSource} (hid : new.id = loaded.id) :
    flushSource loaded new loaded = new := by
  simp only [flushSource, flushed_loaded, ← hid]

theorem getActiveRule_of_mem {ruleId : Int} (h : TablesOk libs db) (hmem : rule ∈ db.rules)
    (hloaded : LoadedRule libs ruleId rule) : getActiveRule db ruleId = .ok rule := by
  have hfind : (db.rules.find? fun rule => rule.id = ruleId) = some rule := by
    refine find?_of_nodup h.ruleIds hmem fun other => ?_
    rw [← hloaded.id, decide_eq_true_eq, Int.ofNat_inj]
  simp only [getActiveRule, if_pos hloaded.int64, hfind, hloaded.active]
  rfl

theorem getSource_of_mem {sourceId : Int} (h : TablesOk libs db) (hmem : source ∈ db.sources)
    (hloaded : LoadedSource sourceId source) :
    getSource db.sources sourceId = .ok (some source) := by
  have hfind : (db.sources.find? fun source => source.id = sourceId) = some source := by
    refine find?_of_nodup h.sourceIds hmem fun other => ?_
    rw [← hloaded.id, decide_eq_true_eq, Int.ofNat_inj]
  rw [getSource, if_pos hloaded.int64, hfind]

/-- The UPDATE of a row that is as it was loaded. -/
theorem writeRule_loaded (h : TablesOk libs db) (hmem : loaded ∈ db.rules)
    (hid : new.id = loaded.id) (hcreated : new.createdAt = loaded.createdAt)
    (hok : writeRule db loaded new = .ok db') :
    checkSource db new.dataSourceId = .ok () ∧ db' = replaceRule db new := by
  have hfind : (db.rules.find? fun rule => rule.id = loaded.id) = some loaded :=
    find?_of_nodup h.ruleIds hmem fun other => by simp
  simp only [writeRule, hfind, flushRule_loaded hid hcreated] at hok
  obtain ⟨⟨⟩, hsource, hdone⟩ := bind_eq_ok.mp hok
  exact ⟨hsource, (Except.ok.inj hdone).symm⟩

theorem writeSource_loaded {loaded new : SqlDataSource} (h : TablesOk libs db)
    (hmem : loaded ∈ db.sources) (hid : new.id = loaded.id)
    (hok : writeSource db loaded new touched = .ok db') :
    checkName (db.sources.filter fun other => other.id ≠ new.id) new.name = .ok () ∧
      db' = { db with
        sources := db.sources.map fun other => if other.id = new.id then new else other } := by
  have hfind : (db.sources.find? fun source => source.id = loaded.id) = some loaded :=
    find?_of_nodup h.sourceIds hmem fun other => by simp
  simp only [writeSource, hfind, flushSource_loaded hid] at hok
  obtain ⟨⟨⟩, hname, hdone⟩ := bind_eq_ok.mp hok
  exact ⟨hname, (Except.ok.inj hdone).symm⟩

theorem store_name {form : DataSourceForm} {values : Int × Int} {password : String} {id : Nat}
    {trust : PyText} (h : form.store values password id trust = .ok source) :
    storeText form.name = .ok source.name := by
  simp only [DataSourceForm.store, bind_eq_ok] at h
  obtain ⟨name, hname, _, -, _, -, _, -, _, -, _, -, _, -, _, -, _, -, hsource⟩ := h
  cases hsource
  exact hname

theorem findByName_eq {form : DataSourceForm} {name : String}
    (h : storeText form.name = .ok name) :
    findByName db form.name = .ok (db.sources.find? fun source => source.name = name) := by
  simp only [findByName, h]
  rfl

/-! ### A transaction is that of the request alone -/

theorem createRule_alone {form : RuleForm} {validated : ValidatedForm}
    {sources : List SqlDataSource} (hform : validateRuleForm libs sources form = .ok validated)
    (hok : insertRule db (form.values validated []) times = .ok db') :
    createRule libs db form times = (.redirect "/rules", db') := by
  obtain ⟨-, -, hsource, -⟩ := insertRule_eq_ok.mp hok
  simp only [createRule, validateRuleForm_sources hform hsource, hok]
  rfl

theorem updateRule_alone {ruleId : Int} {form : RuleForm} {now : DateTime}
    {validated : ValidatedForm} {sources : List SqlDataSource} (h : TablesOk libs db)
    (hmem : rule ∈ db.rules) (hloaded : LoadedRule libs ruleId rule)
    (hform : validateRuleForm libs sources form = .ok validated)
    (hnew : RuleVersions.assign rule form validated now = .ok new)
    (hok : writeRule db rule new = .ok db') :
    updateRule libs db ruleId form now = (.redirect "/rules", db') := by
  obtain ⟨hvalues, hid, -, hcreated, -⟩ := RuleVersions.assign_eq_ok hnew
  have hsourceId : new.dataSourceId = validated.sourceId :=
    congrArg RuleValues.dataSourceId hvalues
  obtain ⟨hsource, rfl⟩ := writeRule_loaded h hmem hid hcreated hok
  have hthere : validated.sourceId ∈ db.sources.map SqlDataSource.id :=
    hsourceId ▸ checkSource_eq_ok.mp hsource
  rw [RuleVersions.assign] at hnew
  simp only [updateRule, getActiveRule_of_mem h hmem hloaded,
    validateRuleForm_sources hform hthere, hnew, bind, Except.bind, hsource]
  rfl

theorem archiveRule_alone {ruleId : Int} {now : DateTime} (h : TablesOk libs db)
    (hmem : rule ∈ db.rules) (hloaded : LoadedRule libs ruleId rule)
    (hnew : new = { rule with enabled := false, archivedAt := some now, updatedAt := now })
    (hok : writeRule db rule new = .ok db') :
    archiveRule db ruleId now = (.redirect "/rules", db') := by
  obtain ⟨-, rfl⟩ := writeRule_loaded h hmem (hnew ▸ rfl) (hnew ▸ rfl) hok
  simp only [archiveRule, getActiveRule_of_mem h hmem hloaded, hnew]

theorem importRules_alone {bytes : ByteArray} {times : Nat → DateTime × DateTime}
    {rules : List RuleValues} (himport : checkImport libs db bytes = .importing rules)
    (hok : insertRules db rules times = .ok db') :
    importRulesJson libs db bytes times =
      (.redirect s!"/rules?imported={rules.length}", db') := by
  obtain ⟨outcome, heq, -⟩ | ⟨payload, rules', hupload, hrules, heq⟩ :=
    checkImport_cases libs db bytes
  · cases heq.symm.trans himport
  · cases heq.symm.trans himport
    simp only [importRulesJson, hupload, hrules, hok]
    rfl

theorem createSource_alone {form : DataSourceForm} {values : Int × Int}
    (hvalues : parseSqlConnectionValues form.port form.connectTimeoutSeconds = .ok values)
    (hok : insertSource db form values = .ok db') :
    createSource db form = (.redirect "/settings", db') := by
  obtain ⟨_, -, hrest⟩ := bind_eq_ok.mp hok
  obtain ⟨row, hrow, hrest⟩ := bind_eq_ok.mp hrest
  obtain ⟨⟨⟩, hname, -⟩ := bind_eq_ok.mp hrest
  have hnone : findByName db form.name = .ok none := by
    rw [findByName_eq (store_name hrow), List.find?_eq_none.mpr]
    intro other hother hsame
    exact checkName_eq_ok.mp hname (List.mem_map.mpr ⟨other, hother, by simpa using hsame⟩)
  have hcommit : commit db "/settings" (insertSource db form values) =
      (.redirect "/settings", db') := by
    rw [hok]
    rfl
  simp only [createSource, hvalues, hnone]
  exact hcommit

/-- A name that no other row has is not taken. -/
theorem not_taken {name : String}
    (h : name ∉ (db.sources.filter fun other => other.id ≠ source.id).map SqlDataSource.name) :
    ((db.sources.find? fun other => other.name = name).map SqlDataSource.id).any
      (· ≠ source.id) = false := by
  cases hfind : db.sources.find? fun other => other.name = name with
  | none => rfl
  | some found =>
      have hname : found.name = name := by simpa using List.find?_some hfind
      have hsame : found.id = source.id := by
        by_contra hne
        exact h (List.mem_map.mpr
          ⟨found, List.mem_filter.mpr ⟨List.mem_of_find?_eq_some hfind, by simpa using hne⟩, hname⟩)
      simp [hsame]

theorem updateSource_alone {sourceId : Int} {form : DataSourceForm} {values : Int × Int}
    {new : SqlDataSource} (h : TablesOk libs db) (hmem : source ∈ db.sources)
    (hloaded : LoadedSource sourceId source)
    (hvalues : parseSqlConnectionValues form.port form.connectTimeoutSeconds = .ok values)
    (hnew : assignSource source form values = .ok new)
    (hok : writeSource db source new touched = .ok db') :
    updateSource db sourceId form = (.redirect "/settings", db') := by
  obtain ⟨_, hpassword, hstore⟩ := bind_eq_ok.mp hnew
  have hid := DataSourceForm.store_id hstore
  obtain ⟨hname, rfl⟩ := writeSource_loaded h hmem hid hok
  rw [hid] at hname ⊢
  simp only [updateSource, getSource_of_mem h hmem hloaded, hvalues,
    findByName_eq (store_name hstore), not_taken (checkName_eq_ok.mp hname), hpassword, hstore,
    hname, bind, Except.bind]
  rfl

theorem deleteSource_alone {sourceId : Int} (h : TablesOk libs db)
    (hthere : source.id ∈ db.sources.map SqlDataSource.id) (hloaded : LoadedSource sourceId source)
    (hok : removeSource db source = .ok db') :
    deleteSource db sourceId = (.redirect "/settings", db') := by
  obtain ⟨other, hother, hsame⟩ := List.mem_map.mp hthere
  have hother' : LoadedSource sourceId other := ⟨hloaded.int64, by rw [hsame, hloaded.id]⟩
  simp only [removeSource] at hok
  split at hok
  case isTrue => cases hok
  case isFalse hfree =>
    cases hok
    have hunused : (db.rules.filter fun rule => rule.dataSourceId = source.id).map
        AlertRule.name = [] := by
      rw [List.map_eq_nil_iff, List.filter_eq_nil_iff]
      intro rule hrule hrefers
      exact hfree ⟨hthere, List.mem_map.mpr ⟨rule, hrule, by simpa using hrefers⟩⟩
    simp only [deleteSource, getSource_of_mem h hother hother', hsame]
    rw [if_neg (not_not.mpr hunused)]

omit [DecidableEq ι] in
theorem handle_of_written {location : String} (h : StateOk libs requests s)
    (hwritten : Written s.db touched (requests i) (s.phase i) location db')
    (hundisturbed : Undisturbed libs requests s (.write i touched)) :
    handle libs s.db (requests i) = (.redirect location, db') := by
  have hinHand := h.inHand i
  have huptodate : upToDate libs s.db (requests i) (s.phase i) = true := hundisturbed
  generalize requests i = request at *
  generalize s.phase i = before at *
  cases hwritten with
  | createRule hok =>
      obtain ⟨sources, validated, hform, rfl⟩ := hinHand
      exact createRule_alone hform hok
  | updateRule hnew hok =>
      obtain ⟨hloaded, sources, hform⟩ := hinHand
      exact updateRule_alone h.tables (of_decide_eq_true huptodate) hloaded hform hnew hok
  | archiveRule hok =>
      exact archiveRule_alone h.tables (of_decide_eq_true huptodate) hinHand rfl hok
  | importRules hok => exact importRules_alone (of_decide_eq_true huptodate) hok
  | createSource hok => exact createSource_alone hinHand hok
  | updateSource hnew hok =>
      exact updateSource_alone h.tables (of_decide_eq_true huptodate) hinHand.1 hinHand.2 hnew hok
  | deleteSource hok =>
      exact deleteSource_alone h.tables (of_decide_eq_true huptodate) hinHand hok

/-! ### The order of the transactions -/

theorem runAll_snoc (before : List Request) (request : Request) :
    runAll libs (before ++ [request]) = (handle libs (runAll libs before) request).2 := by
  simp only [runAll, List.foldl_append, List.foldl_cons, List.foldl_nil]

theorem accepted_enter (hbefore : ¬ (s.phase i).Accepted) (hphase : ¬ phase.Accepted) (j : ι) :
    ((s.enter i phase).phase j).Accepted ↔ (s.phase j).Accepted := by
  rcases eq_or_ne j i with rfl | hj
  · simp only [State.enter, Function.update_self]
    exact iff_of_false hphase hbefore
  · simp only [State.enter, Function.update_of_ne hj]

/-- A step that only reads changes no answer. -/
theorem Serial.read {order : List ι} (h : Serial libs requests s order)
    (hreads : Reads libs (requests i) (s.phase i) phase) :
    Serial libs requests (s.enter i phase) order where
  once := h.once
  accepted j := (h.accepted j).trans
    (accepted_enter hreads.pending hreads.notAccepted j).symm
  tables := h.tables
  answers k j hj := by
    have hne : j ≠ i := by
      rintro rfl
      exact hreads.pending ((h.accepted j).mp (List.mem_of_getElem? hj))
    simpa only [State.enter, Function.update_of_ne hne] using h.answers k j hj

/-- The request that writes comes last. -/
theorem Serial.written {order : List ι} {location : String} (h : Serial libs requests s order)
    (hpending : ¬ (s.phase i).Accepted)
    (hhandle : handle libs s.db (requests i) = (.redirect location, db')) :
    Serial libs requests { s.enter i (.finished (.redirect location)) with db := db' }
      (order ++ [i]) := by
  have hfresh : i ∉ order := fun hmem => hpending ((h.accepted i).mp hmem)
  refine ⟨?_, fun j => ?_, ?_, fun k j hj => ?_⟩
  · rw [List.nodup_append]
    refine ⟨h.once, List.nodup_singleton _, ?_⟩
    rintro j hj k hk rfl
    rw [List.mem_singleton] at hk
    exact hfresh (hk ▸ hj)
  · rw [List.mem_append, List.mem_singleton, h.accepted j]
    rcases eq_or_ne j i with rfl | hne
    · simp only [State.enter, Function.update_self, or_true, true_iff]
      trivial
    · simp only [State.enter, Function.update_of_ne hne, hne, or_false]
  · rw [List.map_append, List.map_singleton, runAll_snoc, ← h.tables, hhandle]
  · have hk : k < order.length + 1 := by simpa using (List.getElem?_eq_some_iff.mp hj).1
    rcases Nat.lt_succ_iff_lt_or_eq.mp hk with hlt | rfl
    · rw [List.getElem?_append_left hlt] at hj
      have hne : j ≠ i := by
        rintro rfl
        exact hfresh (List.mem_of_getElem? hj)
      rw [List.take_append_of_le_length hlt.le]
      simpa only [State.enter, Function.update_of_ne hne] using h.answers k j hj
    · rw [List.getElem?_concat_length] at hj
      cases hj
      rw [List.take_left', ← h.tables, hhandle]
      · simp only [State.enter, Function.update_self]
      · rfl

theorem isAccepted_iff : phase.isAccepted = true ↔ phase.Accepted := by
  cases phase with
  | finished outcome =>
      cases outcome with
      | redirect location => exact iff_of_true rfl trivial
      | _ => exact iff_of_false Bool.false_ne_true id
  | _ => exact iff_of_false Bool.false_ne_true id

theorem check_finished (db : RuleDb) (request : Request) (outcome : Outcome) :
    check libs db request (.finished outcome) = none := by
  cases request <;> rfl

theorem write_finished (db : RuleDb) (touched : Bool) (request : Request) (outcome : Outcome) :
    write db touched request (.finished outcome) = none := by
  cases request <;> rfl

theorem step_other {label : Label ι} {j : ι} (hstep : step libs requests s label = some t)
    (hj : j ≠ label.request) : t.phase j = s.phase j := by
  cases label with
  | load i =>
      simp only [RuleProtocol.step] at hstep
      split at hstep
      case h_1 =>
        obtain ⟨phase, -, rfl⟩ := Option.map_eq_some_iff.mp hstep
        exact Function.update_of_ne hj _ _
      case h_2 => cases hstep
  | check i =>
      obtain ⟨phase, -, rfl⟩ := Option.map_eq_some_iff.mp hstep
      exact Function.update_of_ne hj _ _
  | write i touched =>
      obtain ⟨answer, -, rfl⟩ := Option.map_eq_some_iff.mp hstep
      exact Function.update_of_ne hj _ _

/-- A request that has been answered makes no more steps. -/
theorem step_not_finished {label : Label ι} {outcome : Outcome}
    (hstep : step libs requests s label = some t) :
    s.phase label.request ≠ .finished outcome := by
  intro hfinished
  cases label with
  | load i =>
      have hi : s.phase i = .finished outcome := hfinished
      simp only [RuleProtocol.step, hi] at hstep
      cases hstep
  | check i =>
      have hi : s.phase i = .finished outcome := hfinished
      obtain ⟨phase, hcheck, -⟩ := Option.map_eq_some_iff.mp hstep
      rw [hi, check_finished] at hcheck
      cases hcheck
  | write i touched =>
      have hi : s.phase i = .finished outcome := hfinished
      obtain ⟨answer, hwrite, -⟩ := Option.map_eq_some_iff.mp hstep
      rw [hi, write_finished] at hwrite
      cases hwrite

/-- Who has had a transaction has been answered. -/
def WritersFinished (labels : List (Label ι)) (s : State ι) : Prop :=
  ∀ j ∈ labels.filterMap Label.writer, ∃ outcome, s.phase j = .finished outcome

theorem WritersFinished.step {past : List (Label ι)} {label : Label ι}
    (h : WritersFinished past s) (hstep : step libs requests s label = some t) :
    WritersFinished (past ++ [label]) t := by
  intro j hj
  rw [List.filterMap_append] at hj
  rcases List.mem_append.mp hj with hold | hnew
  · obtain ⟨outcome, hj⟩ := h j hold
    have hne : j ≠ label.request := by
      rintro rfl
      exact step_not_finished hstep hj
    exact ⟨outcome, (step_other hstep hne).trans hj⟩
  · obtain ⟨label', hmem, hwriter⟩ := List.mem_filterMap.mp hnew
    cases List.mem_singleton.mp hmem
    cases label with
    | load i => cases hwriter
    | check i => cases hwriter
    | write i touched =>
        cases hwriter
        obtain ⟨answer, -, rfl⟩ := Option.map_eq_some_iff.mp hstep
        exact ⟨answer.1, by simp only [State.enter, Function.update_self]⟩

/-- A step that only reads adds no transaction. -/
theorem transactions_read {past : List (Label ι)} {label : Label ι}
    (hstep : step libs requests s label = some (s.enter i phase))
    (hreads : Reads libs (requests i) (s.phase i) phase) :
    transactions (past ++ [label]) (s.enter i phase) = transactions past s := by
  have hsame : ∀ j, ((s.enter i phase).phase j).isAccepted = (s.phase j).isAccepted := fun j => by
    rw [Bool.eq_iff_iff, isAccepted_iff, isAccepted_iff]
    exact accepted_enter hreads.pending hreads.notAccepted j
  have hnone : ([label].filterMap Label.writer).filter (fun j => (s.phase j).isAccepted) = [] := by
    rw [List.filter_eq_nil_iff]
    intro j hj
    obtain ⟨label', hmem, hwriter⟩ := List.mem_filterMap.mp hj
    cases List.mem_singleton.mp hmem
    cases label with
    | load i => cases hwriter
    | check i => cases hwriter
    | write i touched =>
        cases hwriter
        obtain ⟨answer, hwrite, -⟩ := Option.map_eq_some_iff.mp hstep
        exact fun h => write_pending hwrite (isAccepted_iff.mp h)
  simp only [transactions, hsame, List.filterMap_append, List.filter_append, hnone,
    List.append_nil]

theorem transactions_written {past : List (Label ι)} {location : String}
    (hfinished : WritersFinished past s)
    (hstep : step libs requests s (.write i touched) =
      some { s.enter i (.finished (.redirect location)) with db := db' }) :
    transactions (past ++ [.write i touched])
      { s.enter i (.finished (.redirect location)) with db := db' } =
        transactions past s ++ [i] := by
  have hfresh : i ∉ past.filterMap Label.writer := by
    intro hmem
    obtain ⟨outcome, hi⟩ := hfinished i hmem
    exact step_not_finished hstep hi
  rw [transactions, List.filterMap_append, List.filter_append]
  congr 1
  · refine List.filter_congr fun j hj => ?_
    have hne : j ≠ i := fun heq => hfresh (heq ▸ hj)
    simp only [State.enter, Function.update_of_ne hne]
  · simp [Label.writer, State.enter, Phase.isAccepted]

theorem Serial.step {past : List (Label ι)} {label : Label ι} (hok : StateOk libs requests s)
    (hfinished : WritersFinished past s) (h : Serial libs requests s (transactions past s))
    (hundisturbed : Undisturbed libs requests s label)
    (hstep : step libs requests s label = some t) :
    Serial libs requests t (transactions (past ++ [label]) t) := by
  obtain ⟨i, phase, hreads, rfl⟩ | ⟨i, touched, location, db', rfl, hwritten, rfl⟩ :=
    step_cases hok.tables hok.inHand hstep
  · rw [transactions_read hstep hreads]
    exact h.read hreads
  · rw [transactions_written hfinished hstep]
    exact h.written hwritten.pending (handle_of_written hok hwritten hundisturbed)

/-- As long as no request writes over a change that it has not seen, the tables and the answers
are those of the accepted requests one after the other, in the order of their transactions, and
every rule is one that the executor can run. -/
theorem serializable {labels : List (Label ι)}
    (hrun : fire (step libs requests) (start ι) labels = some s)
    (hundisturbed : Every (step libs requests) (Undisturbed libs requests) (start ι) labels) :
    Serial libs requests s (transactions labels s) ∧
      ∀ rule ∈ s.db.rules, RuleOk libs s.db.sources rule := by
  have hinv : Every (step libs requests) (Undisturbed libs requests) (start ι) ([] ++ labels) →
      StateOk libs requests s ∧ WritersFinished ([] ++ labels) s ∧
        Serial libs requests s (transactions ([] ++ labels) s) := by
    refine fire_history (P := fun past u =>
      Every (step libs requests) (Undisturbed libs requests) (start ι) past →
        StateOk libs requests u ∧ WritersFinished past u ∧
          Serial libs requests u (transactions past u)) ?_ (fire_nil.mpr rfl) (fun _ => ?_) hrun
    · intro past u label v hpast hbefore hstep hevery
      obtain ⟨hok, hfinished, hserial⟩ := hbefore hevery.left
      exact ⟨(hok.step hstep).1, hfinished.step hstep,
        hserial.step hok hfinished (hevery.last hpast) hstep⟩
    · exact ⟨start_ok, fun j hj => absurd hj List.not_mem_nil, ⟨List.nodup_nil,
        fun i => iff_of_false List.not_mem_nil id, rfl, fun k i hi => by cases hi⟩⟩
  obtain ⟨-, -, hserial⟩ := hinv hundisturbed
  refine ⟨hserial, fun rule hrule => ?_⟩
  rw [hserial.tables] at hrule ⊢
  exact ruleOk_of_valid ((runAll_inv ((transactions labels s).map requests)).valid rule hrule)

/-! ## Two edits in turn -/

def edited (i : Fin 4) : List (Label (Fin 4)) := [.load i, .check i, .write i true]

theorem serializable_inTurn :
    ∃ s, fire (step plainLibraries fourRequests) (start (Fin 4))
        (created ++ edited 2 ++ edited 3) = some s ∧
      Serial plainLibraries fourRequests s
        (transactions (created ++ edited 2 ++ edited 3) s) ∧
        ∀ rule ∈ s.db.rules, RuleOk plainLibraries s.db.sources rule := by
  have hafter : rulesAfter (created ++ edited 2 ++ edited 3) =
      some ([(.summary, "")], .finished (.redirect "/rules"), .finished (.redirect "/rules")) := by
    decide +kernel
  obtain ⟨s, hrun, -⟩ := Option.map_eq_some_iff.mp hafter
  exact ⟨s, hrun, serializable hrun (by decide +kernel)⟩

end EarlyWarning.RuleProtocol
