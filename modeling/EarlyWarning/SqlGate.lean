/-
# `SqlGate` — which queries a rule may have

`validate_select_sql` of `app/sql_validator.py`.  The text is cut into tokens and parsed, and every
node of the tree is looked at, one level after another.  A text passes exactly when it is one query
whose tree has nothing in it that writes, and one that does not is refused for the first node that
is at fault (`validateSelectOnlySql_exact`).

The check stands at both ends: where a rule is written, and where it is executed.  So a rule that
is stored has such a query, whatever other requests were going on, and nothing else is ever sent to
a server (`only_queries_asked`).

The tokenizer and the parser are a library's (`SqlGlot`).
-/
import EarlyWarning.Lib.LevelOrder
import EarlyWarning.RuleProtocol

namespace EarlyWarning.SqlGate

open Lib EarlyWarning.RuleStore

/-! ## The library -/

inductive TokenType
  | select
  /-- `TokenType.WITH` -/
  | withClause
  | semicolon
  | other
deriving DecidableEq

/-- The classes of `sqlglot.exp` that the check tells apart. -/
inductive NodeClass
  | select
  | setOperation
  | ddl
  | dml
  | command
  | into
  | nextValueFor
  | lock
  | cte
  | anonymous
  | identifier
  | semicolon
  /-- any other subclass of `Expression` -/
  | other
deriving DecidableEq

/-- A node, as far as the check reads it. -/
structure SqlNode where
  cls : NodeClass
  /-- `node.name` -/
  name : PyText
  /-- the truth of `node.args.get("quoted")` -/
  quoted : Bool
deriving DecidableEq

/-- A node, with the expressions among its arguments. -/
abbrev Expression := Rose SqlNode

structure SqlGlot (τ : Type) where
  /-- `TSQL().tokenize(sql)`; `none` when it raises `TokenError` or `RecursionError` -/
  tokenize : PyText → Option (List τ)
  /-- `token.token_type` -/
  tokenType : τ → TokenType
  /-- `_ReadOnlyTSQLParser(…).parse(tokens, sql)`; `none` when it raises `ParseError` or
  `RecursionError` -/
  parse : List τ → PyText → Option (List (Option Expression))
  /-- the class of `node.this.unnest()` -/
  unnest : Expression → NodeClass

/-! ## The check -/

/-- `isinstance(node, _QUERY_TYPES)` -/
def NodeClass.isQuery : NodeClass → Bool
  | .select | .setOperation => true
  | _ => false

/-- `isinstance(node, _UNSAFE_NODES)` -/
def NodeClass.isUnsafeNode : NodeClass → Bool
  | .ddl | .dml | .command | .into | .nextValueFor | .lock => true
  | _ => false

/-- `_EXTERNAL_FUNCTIONS` -/
def externalFunctions : List String := ["OPENQUERY", "OPENROWSET", "OPENDATASOURCE"]

/-- `_STATEMENT_KEYWORDS` -/
def statementKeywords : List String :=
  ["ALTER", "CREATE", "DELETE", "DROP", "EXEC", "EXECUTE", "INSERT", "MERGE", "TRUNCATE", "UPDATE",
    "GRANT", "DENY", "REVOKE", "DBCC", "WAITFOR"]

/-- The characters that `str.upper` makes ASCII letters of; it leaves none of the others ASCII. -/
def upperChar : PyChar → PyText
  | .char 'ı' => [.char 'I']
  | .char 'ſ' => [.char 'S']
  | .char 'ß' => [.char 'S', .char 'S']
  | .char 'ﬀ' => [.char 'F', .char 'F']
  | .char 'ﬁ' => [.char 'F', .char 'I']
  | .char 'ﬂ' => [.char 'F', .char 'L']
  | .char 'ﬃ' => [.char 'F', .char 'F', .char 'I']
  | .char 'ﬄ' => [.char 'F', .char 'F', .char 'L']
  | .char 'ﬅ' => [.char 'S', .char 'T']
  | .char 'ﬆ' => [.char 'S', .char 'T']
  | .char c => [.char c.toUpper]
  | .surrogate n => [.surrogate n]

/-- `name.upper() in names`, of names in ASCII. -/
def upperIn (name : PyText) (names : List String) : Bool :=
  (names.map PyText.ofString).contains (name.flatMap upperChar)

variable {τ : Type} (glot : SqlGlot τ)

/-- What the walk raises at a node. -/
def offence (node : Expression) : Option String :=
  if node.value.cls.isUnsafeNode then some "只允许只读 SELECT 查询，不允许修改数据或数据库状态"
  else if node.value.cls = .cte ∧ (glot.unnest node).isQuery = false then
    some "WITH 子查询必须是只读 SELECT 查询"
  else if node.value.cls = .anonymous ∧ upperIn node.value.name externalFunctions then
    some "不允许外部数据源查询函数"
  else if node.value.cls = .identifier ∧ node.value.quoted = false ∧
      upperIn node.value.name statementKeywords then
    some "语句关键字作为标识符时必须使用方括号或双引号"
  else none

/-- `tokens[0].token_type` is one of those a query starts with. -/
def startsQuery : List τ → Bool
  | [] => false
  | token :: _ => glot.tokenType token = .select || glot.tokenType token = .withClause

/-- The places of the semicolons. -/
def terminators (tokens : List τ) : List ℕ :=
  (tokens.zipIdx.filter fun token => glot.tokenType token.1 = .semicolon).map Prod.snd

/-- `isinstance(statement, exp.Semicolon)` -/
def isSemicolon : Option Expression → Bool
  | some statement => statement.value.cls = .semicolon
  | none => false

/-- The one statement, when it is a query. -/
def soleQuery (statements : List (Option Expression)) : Option Expression :=
  match statements.filter fun statement => !isSemicolon statement with
  | [some query] => if query.value.cls.isQuery then some query else none
  | _ => none

/-- `validate_select_sql`, from the parsed statements on -/
def checkStatements (statements : List (Option Expression)) : Except String Unit :=
  match soleQuery statements with
  | none => .error "只允许单条 SELECT 查询"
  | some query =>
      match (Rose.breadthFirst [query]).findSome? (offence glot) with
      | some message => .error message
      | none => .ok ()

/-- `validate_select_sql`, from the tokenizer on -/
def checkSelect (normalized : PyText) : Except String Unit :=
  match glot.tokenize normalized with
  | none => .error "SQL 无法安全解析，请检查语法或不支持的查询结构"
  | some tokens =>
      if startsQuery glot tokens = false then .error "只允许 SELECT 查询"
      else if (terminators glot tokens).length > 1 ∨
          ∃ first ∈ (terminators glot tokens).head?, first ≠ tokens.length - 1 then
        .error "只允许单条 SELECT 查询"
      else
        match glot.parse tokens normalized with
        | none => .error "SQL 无法安全解析，请检查语法或不支持的查询结构"
        | some statements => checkStatements glot statements

/-- The libraries, with this check. -/
def gated {φ : Type} (libs : RuleLibraries φ) : RuleLibraries φ :=
  { libs with parseSelect := checkSelect glot }

/-! ## What passes -/

/-- The text is one query, with this tree. -/
structure OneQuery (sql : PyText) (tokens : List τ) (statements : List (Option Expression))
    (query : Expression) : Prop where
  nonempty : PyText.strip sql ≠ []
  tokenize : glot.tokenize (PyText.strip sql) = some tokens
  first : ∃ token rest, tokens = token :: rest ∧
    (glot.tokenType token = .select ∨ glot.tokenType token = .withClause)
  /-- a semicolon is the last token -/
  semicolon : ∀ i token, tokens[i]? = some token → glot.tokenType token = .semicolon →
    i + 1 = tokens.length
  parse : glot.parse tokens (PyText.strip sql) = some statements
  sole : (statements.filter fun statement => !isSemicolon statement) = [some query]
  isQuery : query.value.cls.isQuery = true

def IsQuery (sql : PyText) (query : Expression) : Prop :=
  ∃ tokens statements, OneQuery glot sql tokens statements query

/-- A node that neither writes nor reads from another server, and that is not a keyword of a
statement. -/
structure Harmless (node : Expression) : Prop where
  readOnly : node.value.cls.isUnsafeNode = false
  cte : node.value.cls = .cte → (glot.unnest node).isQuery = true
  anonymous : node.value.cls = .anonymous → upperIn node.value.name externalFunctions = false
  identifier : node.value.cls = .identifier → node.value.quoted = false →
    upperIn node.value.name statementKeywords = false

/-- One query, without a node at fault. -/
def ReadOnlyQuery (sql : PyText) : Prop :=
  ∃ query, IsQuery glot sql query ∧
    ∀ path node, query.at? path = some node → Harmless glot node

variable {glot} {sql : PyText} {tokens : List τ} {statements : List (Option Expression)}
  {query node : Expression} {message : String}

theorem offence_eq_none : offence glot node = none ↔ Harmless glot node := by
  constructor
  · intro h
    unfold offence at h
    split at h
    case isTrue => cases h
    case isFalse hreadOnly =>
      split at h
      case isTrue => cases h
      case isFalse hcte =>
        split at h
        case isTrue => cases h
        case isFalse hanonymous =>
          split at h
          case isTrue => cases h
          case isFalse hidentifier =>
            refine ⟨eq_false_of_ne_true hreadOnly, fun hcls => ?_, fun hcls => ?_,
              fun hcls hquoted => ?_⟩
            · exact eq_true_of_ne_false fun hother => hcte ⟨hcls, hother⟩
            · exact eq_false_of_ne_true fun hname => hanonymous ⟨hcls, hname⟩
            · exact eq_false_of_ne_true fun hname => hidentifier ⟨hcls, hquoted, hname⟩
  · intro h
    unfold offence
    rw [if_neg (ne_true_of_eq_false h.readOnly), if_neg, if_neg, if_neg]
    · rintro ⟨hcls, hquoted, hname⟩
      exact absurd hname (ne_true_of_eq_false (h.identifier hcls hquoted))
    · rintro ⟨hcls, hname⟩
      exact absurd hname (ne_true_of_eq_false (h.anonymous hcls))
    · rintro ⟨hcls, hother⟩
      exact absurd (h.cte hcls) (ne_true_of_eq_false hother)

/-! ### The tokens -/

theorem startsQuery_eq_true : startsQuery glot tokens = true ↔
    ∃ token rest, tokens = token :: rest ∧
      (glot.tokenType token = .select ∨ glot.tokenType token = .withClause) := by
  cases tokens with
  | nil => simp [startsQuery]
  | cons token rest =>
      simp only [startsQuery, Bool.or_eq_true, decide_eq_true_eq]
      constructor
      · exact fun h => ⟨token, rest, rfl, h⟩
      · rintro ⟨_, _, ⟨⟩, h⟩
        exact h

theorem mem_terminators {i : ℕ} : i ∈ terminators glot tokens ↔
    ∃ token, tokens[i]? = some token ∧ glot.tokenType token = .semicolon := by
  rw [terminators, List.mem_map]
  constructor
  · rintro ⟨⟨token, j⟩, hmem, rfl⟩
    obtain ⟨hplace, htype⟩ := List.mem_filter.mp hmem
    exact ⟨token, List.mem_zipIdx_iff_getElem?.mp hplace, of_decide_eq_true htype⟩
  · rintro ⟨token, hplace, htype⟩
    exact ⟨(token, i), List.mem_filter.mpr ⟨List.mem_zipIdx_iff_getElem?.mpr hplace,
      decide_eq_true htype⟩, rfl⟩

theorem terminators_nodup : (terminators glot tokens).Nodup := by
  have hplaces : (tokens.zipIdx.map Prod.snd).Nodup := by
    rw [List.zipIdx_map_snd]
    exact List.nodup_range'
  exact hplaces.sublist ((List.filter_sublist).map Prod.snd)

/-- A semicolon that is not the last token is the first of them, or there is another one. -/
theorem separated_iff : ((terminators glot tokens).length > 1 ∨
      ∃ first ∈ (terminators glot tokens).head?, first ≠ tokens.length - 1) ↔
    ¬ ∀ i token, tokens[i]? = some token → glot.tokenType token = .semicolon →
      i + 1 = tokens.length := by
  have hlast : (∀ i token, tokens[i]? = some token → glot.tokenType token = .semicolon →
      i + 1 = tokens.length) ↔ ∀ i ∈ terminators glot tokens, i = tokens.length - 1 := by
    constructor
    · intro h i hi
      obtain ⟨token, hplace, htype⟩ := mem_terminators.mp hi
      exact Nat.eq_sub_of_add_eq (h i token hplace htype)
    · intro h i token hplace htype
      have hi := h i (mem_terminators.mpr ⟨token, hplace, htype⟩)
      obtain ⟨hless, -⟩ := List.getElem?_eq_some_iff.mp hplace
      omega
  rw [hlast]
  have hnodup : (terminators glot tokens).Nodup := terminators_nodup
  generalize terminators glot tokens = places at hnodup
  cases places with
  | nil => simp
  | cons first rest =>
      cases rest with
      | nil => simp
      | cons second rest =>
          simp only [List.length_cons, gt_iff_lt, Nat.lt_add_left_iff_pos, Nat.zero_lt_succ,
            true_or, true_iff]
          intro hall
          have hne : first ≠ second := by
            rintro rfl
            exact (List.nodup_cons.mp hnodup).1 List.mem_cons_self
          have hfirst := hall first List.mem_cons_self
          have hsecond := hall second (List.mem_cons_of_mem _ List.mem_cons_self)
          exact hne (hfirst.trans hsecond.symm)

/-! ### The statements -/

theorem soleQuery_eq_some : soleQuery statements = some query ↔
    (statements.filter fun statement => !isSemicolon statement) = [some query] ∧
      query.value.cls.isQuery = true := by
  unfold soleQuery
  split
  case h_1 sole hsole =>
    rw [hsole]
    constructor
    · intro h
      rw [Option.ite_none_right_eq_some] at h
      obtain ⟨hquery, ⟨⟩⟩ := h
      exact ⟨rfl, hquery⟩
    · rintro ⟨⟨⟩, hquery⟩
      exact if_pos hquery
  case h_2 hnone =>
    constructor
    · intro h
      cases h
    · rintro ⟨hsole, -⟩
      exact absurd hsole (hnone query)

/-- The check of a text with a query is that of its nodes. -/
theorem OneQuery.checkSelect (h : OneQuery glot sql tokens statements query) :
    checkSelect glot (PyText.strip sql) =
      match (Rose.breadthFirst [query]).findSome? (offence glot) with
      | some message => .error message
      | none => .ok () := by
  have hstart : ¬ startsQuery glot tokens = false := by
    rw [startsQuery_eq_true.mpr h.first]
    exact Bool.noConfusion
  have hapart := not_not.mpr h.semicolon
  rw [← separated_iff.not] at hapart
  simp only [SqlGate.checkSelect, h.tokenize, if_neg hstart, if_neg hapart, h.parse,
    checkStatements, soleQuery_eq_some.mpr ⟨h.sole, h.isQuery⟩]

/-- A text that passes has a query. -/
theorem exists_oneQuery (hnonempty : PyText.strip sql ≠ [])
    (h : checkSelect glot (PyText.strip sql) = .ok ()) :
    ∃ tokens statements query, OneQuery glot sql tokens statements query := by
  unfold checkSelect at h
  split at h
  case h_1 => cases h
  case h_2 tokens htokens =>
    split at h
    case isTrue => cases h
    case isFalse hstart =>
      split at h
      case isTrue => cases h
      case isFalse hapart =>
        split at h
        case h_1 => cases h
        case h_2 statements hstatements =>
          unfold checkStatements at h
          split at h
          case h_1 => cases h
          case h_2 query hquery =>
            obtain ⟨hsole, hisQuery⟩ := soleQuery_eq_some.mp hquery
            exact ⟨tokens, statements, query, hnonempty, htokens,
              startsQuery_eq_true.mp (eq_true_of_ne_false hstart),
              not_not.mp (separated_iff.not.mp hapart), hstatements, hsole, hisQuery⟩

/-! ### The answer -/

variable {φ : Type} {libs : RuleLibraries φ}

theorem OneQuery.validateSelectOnlySql (h : OneQuery glot sql tokens statements query) :
    validateSelectOnlySql (gated glot libs) sql =
      match (Rose.breadthFirst [query]).findSome? (offence glot) with
      | some message => .error message
      | none => .ok () :=
  (if_neg h.nonempty).trans h.checkSelect

theorem OneQuery.accepted_iff (h : OneQuery glot sql tokens statements query) :
    EarlyWarning.validateSelectOnlySql (gated glot libs) sql = .ok () ↔
      ∀ path node, query.at? path = some node → Harmless glot node := by
  rw [h.validateSelectOnlySql]
  cases hwalk : (Rose.breadthFirst [query]).findSome? (offence glot) with
  | none =>
      refine iff_of_true rfl fun path node hat => offence_eq_none.mp ?_
      exact Rose.findSome?_breadthFirst_eq_none.mp hwalk path node hat
  | some message =>
      obtain ⟨path, node, hat, hfound, -⟩ := Rose.findSome?_breadthFirst.mp hwalk
      refine iff_of_false (fun hok => by cases hok) fun hall => ?_
      rw [offence_eq_none.mpr (hall path node hat)] at hfound
      cases hfound

theorem OneQuery.refused_iff (h : OneQuery glot sql tokens statements query) :
    EarlyWarning.validateSelectOnlySql (gated glot libs) sql = .error message ↔
      ∃ path node, query.at? path = some node ∧ offence glot node = some message ∧
        ∀ path' node', Rose.Before path' path → query.at? path' = some node' →
          Harmless glot node' := by
  have hfirst := Rose.findSome?_breadthFirst (f := offence glot) (t := query) (b := message)
  simp only [offence_eq_none] at hfirst
  rw [h.validateSelectOnlySql, ← hfirst]
  cases (Rose.breadthFirst [query]).findSome? (offence glot) with
  | none => exact iff_of_false (fun hok => by cases hok) fun hsome => by cases hsome
  | some other => rw [Except.error.injEq, Option.some.injEq]

/-- **What passes.** -/
theorem accepted_iff_readOnlyQuery :
    validateSelectOnlySql (gated glot libs) sql = .ok () ↔ ReadOnlyQuery glot sql := by
  constructor
  · intro h
    have hnonempty : PyText.strip sql ≠ [] := by
      intro hempty
      unfold validateSelectOnlySql at h
      rw [if_pos hempty] at h
      cases h
    have hcheck : checkSelect glot (PyText.strip sql) = .ok () := (if_neg hnonempty).symm.trans h
    obtain ⟨tokens, statements, query, hquery⟩ := exists_oneQuery hnonempty hcheck
    exact ⟨query, ⟨tokens, statements, hquery⟩, hquery.accepted_iff.mp h⟩
  · rintro ⟨query, ⟨tokens, statements, hquery⟩, hharmless⟩
    exact hquery.accepted_iff.mpr hharmless

/-- A text passes exactly when it is one query without a node at fault.  Of a query with such
nodes, the answer is about the one that the walk comes to first: the least deep, and of those the
leftmost. -/
theorem validateSelectOnlySql_exact :
    (validateSelectOnlySql (gated glot libs) sql = .ok () ↔ ReadOnlyQuery glot sql) ∧
    (IsQuery glot sql query →
      ∀ message, validateSelectOnlySql (gated glot libs) sql = .error message ↔
        ∃ path node, query.at? path = some node ∧ offence glot node = some message ∧
          ∀ path' node', Rose.Before path' path → query.at? path' = some node' →
            Harmless glot node') := by
  refine ⟨accepted_iff_readOnlyQuery, ?_⟩
  rintro ⟨tokens, statements, hquery⟩ message
  exact hquery.refused_iff

/-- A library that makes this tree of every text. -/
def treeGlot (tree : Expression) : SqlGlot TokenType where
  tokenize _ := some [.select, .other]
  tokenType token := token
  parse _ _ := some [some tree]
  unnest _ := .select

/-- A query with a node that writes, below one of its nodes, and then a function that reads from
another server. -/
def twoFaults : Expression :=
  .node ⟨.select, [], false⟩
    [.node ⟨.other, [], false⟩ [.node ⟨.dml, [], false⟩ []],
      .node ⟨.anonymous, .ofString "OpenQuery", false⟩ []]

theorem isQuery_treeGlot {tree : Expression} (h : tree.value.cls.isQuery = true) :
    IsQuery (treeGlot tree) (.ofString "select 1") tree := by
  have hsemicolon : isSemicolon (some tree) = false := by
    refine decide_eq_false fun hcls => ?_
    rw [hcls] at h
    cases h
  refine ⟨[.select, .other], [some tree], by decide, rfl, ⟨_, _, rfl, .inl rfl⟩, ?_, rfl, ?_, h⟩
  · intro i token hplace htype
    match i with
    | 0 =>
        cases hplace
        cases htype
    | 1 => rfl
    | _ + 2 => cases hplace
  · rw [List.filter_cons_of_pos (by rw [hsemicolon]; rfl), List.filter_nil]

theorem twoFaults_refused :
    validateSelectOnlySql (gated (treeGlot twoFaults) plainLibraries) (.ofString "select 1") =
      .error "不允许外部数据源查询函数" := by
  refine (validateSelectOnlySql_exact.2 (@isQuery_treeGlot twoFaults rfl) _).mpr
    ⟨[1], _, rfl, by decide, fun path node hbefore hat => offence_eq_none.mp ?_⟩
  rcases List.shortlex_def.mp hbefore with hshorter | ⟨hlength, hlex⟩
  · rw [List.length_singleton, Nat.lt_one_iff, List.length_eq_zero_iff] at hshorter
    rw [hshorter] at hat
    cases hat
    rfl
  · obtain ⟨i, rfl⟩ := List.length_eq_one_iff.mp hlength
    have hi : i < 1 := List.lex_singleton_iff i 1 |>.mp hlex
    rw [Nat.lt_one_iff.mp hi] at hat
    cases hat
    rfl

/-! ## Both ends -/

def sqlValidationError (message : String) : PyExc :=
  ⟨.exception, "SqlValidationError", message, some message, by decide, exception_text_ne message⟩

/-- `validate_select_sql`, of a text of a table. -/
def validateText (glot : SqlGlot τ) (libs : RuleLibraries φ) (sql : String) : Except PyExc Unit :=
  match validateSelectOnlySql (gated glot libs) (.ofString sql) with
  | .ok () => .ok ()
  | .error message => .error (sqlValidationError message)

/-- The libraries of an execution, with this check. -/
def executing (glot : SqlGlot τ) (libs : RuleLibraries φ) (jinja : Jinja) : Libraries where
  jinja
  validateSelectOnlySql := validateText glot libs

variable {jinja : Jinja} {sqlText : String}

theorem validateText_eq_ok : validateText glot libs sqlText = .ok () ↔
    ReadOnlyQuery glot (.ofString sqlText) := by
  have hpassed : validateSelectOnlySql (gated glot libs) (.ofString sqlText) = .ok () ↔
      ReadOnlyQuery glot (.ofString sqlText) := accepted_iff_readOnlyQuery
  rw [← hpassed]
  unfold validateText
  split
  case h_1 hok => exact iff_of_true rfl hok
  case h_2 message herror =>
    rw [herror]
    exact iff_of_false (fun hok => by cases hok) fun hok => by cases hok

/-- An execution asks a server for nothing that does not pass. -/
theorem execute_congr {client client' : SqlClient} {mailer : Mailer} {rule : AlertRule}
    {rowFilter : Option (List Row → Svc (List Row))}
    (h : ∀ sql timeout maxRows, ReadOnlyQuery glot (.ofString sql) →
      client sql timeout maxRows = client' sql timeout maxRows) :
    execute (executing glot libs jinja) client mailer rule rowFilter =
      execute (executing glot libs jinja) client' mailer rule rowFilter := by
  unfold execute
  cases hcheck : (executing glot libs jinja).validateSelectOnlySql rule.sqlText with
  | error exc => rfl
  | ok u =>
      have hquery : ReadOnlyQuery glot (.ofString rule.sqlText) := validateText_eq_ok.mp hcheck
      simp only [h rule.sqlText rule.queryTimeoutSeconds rule.maxRows hquery]

variable {ι : Type} [DecidableEq ι] {requests : ι → Request}

theorem readOnlyQuery_of_mem {db : RuleDb} {rule : AlertRule}
    (h : RuleProtocol.TablesOk (gated glot libs) db) (hrule : rule ∈ db.rules) :
    ReadOnlyQuery glot (.ofString rule.sqlText) :=
  accepted_iff_readOnlyQuery.mp (h.columns rule hrule).sqlText

/-- In whatever order the steps of the requests come, every rule that is stored has a query that
only reads, and its executions do not refuse it.  Whatever the rule and the clients: two of them
that agree on the queries that only read make the same execution. -/
theorem only_queries_asked {labels : List (RuleProtocol.Label ι)} {s : RuleProtocol.State ι}
    (hrun : fire (RuleProtocol.step (gated glot libs) requests)
      (RuleProtocol.start ι) labels = some s) :
    (∀ rule ∈ s.db.rules, ReadOnlyQuery glot (.ofString rule.sqlText) ∧
      (executing glot libs jinja).validateSelectOnlySql rule.sqlText = .ok ()) ∧
    ∀ (rule : AlertRule) (client client' : SqlClient) (mailer : Mailer)
      (rowFilter : Option (List Row → Svc (List Row))),
      (∀ sql timeout maxRows, ReadOnlyQuery glot (.ofString sql) →
        client sql timeout maxRows = client' sql timeout maxRows) →
      execute (executing glot libs jinja) client mailer rule rowFilter =
        execute (executing glot libs jinja) client' mailer rule rowFilter := by
  obtain ⟨hok, -⟩ := RuleProtocol.start_ok.run hrun
  refine ⟨fun rule hrule => ?_, fun rule client client' mailer rowFilter => execute_congr⟩
  have hquery := readOnlyQuery_of_mem hok.tables hrule
  exact ⟨hquery, validateText_eq_ok.mpr hquery⟩

/-- A tree that is one query. -/
def plainQuery : Expression := .node ⟨.select, [], false⟩ []

theorem gated_plainQuery : gated (treeGlot plainQuery) plainLibraries = plainLibraries := by
  have hcheck : checkSelect (treeGlot plainQuery) = fun _ => .ok () := by
    funext sql
    simp [checkSelect, treeGlot, startsQuery, terminators, checkStatements, soleQuery, isSemicolon,
      plainQuery, Rose.value, Rose.children, NodeClass.isQuery, Rose.breadthFirst, offence,
      NodeClass.isUnsafeNode]
  simp only [gated, hcheck]
  rfl

theorem created_run :
    ∃ s, fire (RuleProtocol.step (gated (treeGlot plainQuery) plainLibraries)
        RuleProtocol.fourRequests) (RuleProtocol.start (Fin 4)) RuleProtocol.created = some s ∧
      s.db.rules ≠ [] := by
  have hafter : RuleProtocol.rulesAfter RuleProtocol.created =
      some ([(.perRow, "")], .idle, .idle) := by
    decide +kernel
  obtain ⟨s, hrun, hleft⟩ := Option.map_eq_some_iff.mp hafter
  rw [← gated_plainQuery] at hrun
  refine ⟨s, hrun, fun hempty => ?_⟩
  rw [hempty] at hleft
  cases hleft

theorem only_queries_asked_created :
    ∃ s, fire (RuleProtocol.step (gated (treeGlot plainQuery) plainLibraries)
        RuleProtocol.fourRequests) (RuleProtocol.start (Fin 4)) RuleProtocol.created = some s ∧
      s.db.rules ≠ [] ∧
      ∀ rule ∈ s.db.rules, ReadOnlyQuery (treeGlot plainQuery) (.ofString rule.sqlText) := by
  obtain ⟨s, hrun, hrules⟩ := created_run
  refine ⟨s, hrun, hrules, fun rule hrule => ?_⟩
  obtain ⟨hqueries, -⟩ := @only_queries_asked _ _ _ _ (fun _ text _ => .ok text) _ _ _ _ _ hrun
  exact (hqueries rule hrule).1

end EarlyWarning.SqlGate
