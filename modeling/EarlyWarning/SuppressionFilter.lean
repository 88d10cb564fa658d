/-
# `SuppressionFilter` — what `filter_rows` decides

`filter_rows` is a loop over four accumulators and one database lookup per keyed row.
`filterDecisions` says what it decides, with the accumulators reduced to the one that
matters, the keys kept so far: a row without a key is kept, and a row with a key is
withheld when the key was kept before or the ledger withholds it.

`filterRows_wp` is the specification of the loop: when it returns, it has made exactly
these decisions and the keys in its state are those of the kept and of the withheld
rows; when a lookup raises, it has made a prefix of them.
-/
import EarlyWarning.ExecutionService

namespace EarlyWarning

open Lib

/-- Suppression is on for the rule. -/
def AlertRule.Suppresses (rule : AlertRule) : Prop :=
  rule.suppressDuplicates = true ∧ rule.suppressionKeyField ≠ ""

instance (rule : AlertRule) : Decidable rule.Suppresses :=
  inferInstanceAs (Decidable (_ ∧ _))

/-- The ledger holds the key with a sighting the cutoff does not rule out. -/
def Db.withholds (db : Db) (ruleId : Nat) (cutoff : DateTime) (key : String) : Bool :=
  (db.findSuppression ruleId key).any fun record => cutoff ≤ record.lastSeenAt

/-- The decision on each row; `seen` are the keys kept before. -/
def filterDecisions (withholds : String → Bool) (field : String) :
    (seen : List String) → List Row → List (Row × Bool)
  | _, [] => []
  | seen, row :: rest =>
      let key := rowSuppressionKey row field
      if key = "" then
        (row, true) :: filterDecisions withholds field seen rest
      else if key ∈ seen ∨ withholds key then
        (row, false) :: filterDecisions withholds field seen rest
      else
        (row, true) :: filterDecisions withholds field (key :: seen) rest

/-- The rows decided one way, in order. -/
def rowsDecided (kept : Bool) (decisions : List (Row × Bool)) : List Row :=
  (decisions.filter fun d => d.2 == kept).map Prod.fst

/-- The non-empty keys of the rows decided one way, in order. -/
def keysDecided (field : String) (kept : Bool) (decisions : List (Row × Bool)) : List String :=
  ((rowsDecided kept decisions).map (rowSuppressionKey · field)).filter (· ≠ "")

section

variable {withholds : String → Bool} {field : String}

@[simp] theorem rowsDecided_cons (kept : Bool) (d : Row × Bool) (ds : List (Row × Bool)) :
    rowsDecided kept (d :: ds) =
      if d.2 = kept then d.1 :: rowsDecided kept ds else rowsDecided kept ds := by
  unfold rowsDecided
  by_cases h : d.2 = kept <;> simp [h]

@[simp] theorem keysDecided_cons (kept : Bool) (d : Row × Bool) (ds : List (Row × Bool)) :
    keysDecided field kept (d :: ds) =
      if d.2 = kept ∧ rowSuppressionKey d.1 field ≠ "" then
        rowSuppressionKey d.1 field :: keysDecided field kept ds
      else keysDecided field kept ds := by
  unfold keysDecided
  rw [rowsDecided_cons]
  by_cases h : d.2 = kept
  · by_cases hk : rowSuppressionKey d.1 field = "" <;> simp [h, hk]
  · simp [h]

@[simp] theorem rowsDecided_nil (kept : Bool) : rowsDecided kept [] = [] := rfl

@[simp] theorem keysDecided_nil (kept : Bool) : keysDecided field kept [] = [] := rfl

/-- Every row gets one decision. -/
theorem filterDecisions_rows : ∀ (seen : List String) (rows : List Row),
    (filterDecisions withholds field seen rows).map Prod.fst = rows
  | _, [] => rfl
  | seen, row :: rest => by
      simp only [filterDecisions]
      split
      · rw [List.map_cons, filterDecisions_rows seen rest]
      · split
        · rw [List.map_cons, filterDecisions_rows seen rest]
        · rw [List.map_cons, filterDecisions_rows _ rest]

/-- A kept row has no key the ledger withholds, nor one kept before. -/
theorem filterDecisions_kept {row : Row} : ∀ (seen : List String) (rows : List Row),
    (row, true) ∈ filterDecisions withholds field seen rows →
      rowSuppressionKey row field = "" ∨
        (withholds (rowSuppressionKey row field) = false ∧
          rowSuppressionKey row field ∉ seen)
  | _, [], h => absurd h List.not_mem_nil
  | seen, head :: rest, h => by
      simp only [filterDecisions] at h
      split at h
      case isTrue hkey =>
        rcases List.mem_cons.mp h with heq | h
        · exact .inl ((Prod.mk.inj heq).1 ▸ hkey)
        · exact filterDecisions_kept seen rest h
      case isFalse hkey =>
        split at h
        case isTrue =>
          rcases List.mem_cons.mp h with heq | h
          · cases heq
          · exact filterDecisions_kept seen rest h
        case isFalse hnot =>
          rcases List.mem_cons.mp h with heq | h
          · obtain rfl := (Prod.mk.inj heq).1
            rw [not_or] at hnot
            exact .inr ⟨by simpa using hnot.2, hnot.1⟩
          · rcases filterDecisions_kept _ rest h with h | ⟨h, hns⟩
            · exact .inl h
            · exact .inr ⟨h, fun hm => hns (List.mem_cons_of_mem _ hm)⟩

/-- A withheld row has a key that the ledger withholds, that was kept before the rows, or
that an earlier row was kept with. -/
theorem filterDecisions_withheld {row : Row} {post : List (Row × Bool)} :
    ∀ (seen : List String) (rows : List Row) (pre : List (Row × Bool)),
      filterDecisions withholds field seen rows = pre ++ (row, false) :: post →
        rowSuppressionKey row field ≠ "" ∧
          (withholds (rowSuppressionKey row field) = true ∨
            rowSuppressionKey row field ∈ seen ∨
            ∃ earlier, (earlier, true) ∈ pre ∧
              rowSuppressionKey earlier field = rowSuppressionKey row field)
  | _, [], pre, h => by cases pre <;> cases h
  | seen, head :: rest, pre, h => by
      simp only [filterDecisions] at h
      split at h
      case isTrue hkey =>
        cases pre with
        | nil => cases h
        | cons d pre =>
            obtain ⟨rfl, htail⟩ := List.cons.inj h
            obtain ⟨hne, hw | hs | ⟨e, he, hk⟩⟩ := filterDecisions_withheld seen rest pre htail
            · exact ⟨hne, .inl hw⟩
            · exact ⟨hne, .inr (.inl hs)⟩
            · exact ⟨hne, .inr (.inr ⟨e, List.mem_cons_of_mem _ he, hk⟩)⟩
      case isFalse hkey =>
        split at h
        case isTrue hor =>
          cases pre with
          | nil =>
              obtain ⟨heq, -⟩ := List.cons.inj h
              obtain rfl := (Prod.mk.inj heq).1
              rcases hor with hs | hw
              · exact ⟨hkey, .inr (.inl hs)⟩
              · exact ⟨hkey, .inl hw⟩
          | cons d pre =>
              obtain ⟨rfl, htail⟩ := List.cons.inj h
              obtain ⟨hne, hw | hs | ⟨e, he, hk⟩⟩ := filterDecisions_withheld seen rest pre htail
              · exact ⟨hne, .inl hw⟩
              · exact ⟨hne, .inr (.inl hs)⟩
              · exact ⟨hne, .inr (.inr ⟨e, List.mem_cons_of_mem _ he, hk⟩)⟩
        case isFalse hnot =>
          cases pre with
          | nil => cases h
          | cons d pre =>
              obtain ⟨rfl, htail⟩ := List.cons.inj h
              obtain ⟨hne, hw | hs | ⟨e, he, hk⟩⟩ := filterDecisions_withheld _ rest pre htail
              · exact ⟨hne, .inl hw⟩
              · rcases List.mem_cons.mp hs with heq | hs
                · exact ⟨hne, .inr (.inr ⟨head, List.mem_cons_self, heq.symm⟩)⟩
                · exact ⟨hne, .inr (.inl hs)⟩
              · exact ⟨hne, .inr (.inr ⟨e, List.mem_cons_of_mem _ he, hk⟩)⟩

end

/-! ## The loop

The state of the filter after some decisions, and the run after them. -/

/-- The dictionary and the set after these decisions. -/
def SuppressionState.record (state : SuppressionState) (field : String)
    (decisions : List (Row × Bool)) : SuppressionState :=
  { state with
    newKeys := state.newKeys ++ keysDecided field true decisions
    suppressedKeys := state.suppressedKeys ++ keysDecided field false decisions
    seenInRun := (keysDecided field true decisions).reverse ++ state.seenInRun }

/-- The run after these decisions and some number of operations. -/
def World.decided (w : World) (n : Nat) (field : String) (decisions : List (Row × Bool)) :
    World :=
  { w with
    ops := n
    filterState := w.filterState.map fun state => state.record field decisions
    attempts := w.attempts.modifyHead fun r => { r with decisions := r.decisions ++ decisions } }

@[simp] theorem World.decided_store (w : World) (n : Nat) (field : String)
    (ds : List (Row × Bool)) : (w.decided n field ds).store = w.store := rfl

theorem keysDecided_append (field : String) (kept : Bool) (ds ds' : List (Row × Bool)) :
    keysDecided field kept (ds ++ ds') = keysDecided field kept ds ++ keysDecided field kept ds' := by
  simp [keysDecided, rowsDecided]

theorem World.decided_nil (w : World) (n : Nat) (field : String) :
    w.decided n field [] = { w with ops := n } := by
  have hs : (fun state : SuppressionState => state.record field []) = id := by
    funext state
    simp [SuppressionState.record]
  have hr : (fun r : AttemptRecord => { r with decisions := r.decisions ++ [] }) = id := by
    funext r
    simp
  rw [World.decided, hs, hr, Option.map_id, List.modifyHead_id]
  rfl

theorem World.decided_decided (w : World) (n m : Nat) (field : String)
    (ds ds' : List (Row × Bool)) :
    (w.decided n field ds).decided m field ds' = w.decided m field (ds ++ ds') := by
  simp [World.decided, SuppressionState.record, keysDecided_append, List.modifyHead_modifyHead,
    Function.comp_def]

variable {env : RunEnv} {rule : AlertRule} {cutoff : DateTime}

theorem getSuppressionRecord_wp {w : World} {ruleId : Nat} {key : String}
    {Q : Option AlertSuppression → World → Prop} {E : PyExc → World → Prop}
    (hp : w.store.pending = [])
    (hok : ∀ n, Q (w.store.work.findSuppression ruleId key) { w with ops := n })
    (herr : ∀ e n, E e { w with ops := n }) :
    wp (getSuppressionRecord env ruleId key) Q E w := by
  unfold getSuppressionRecord
  rw [wp_bind]
  refine sessionSelect_wp hp (fun n => ?_) herr
  rw [wp_bind, wp_get, wp_pure]
  exact hok n

/-- One turn of the loop decides the row as `filterDecisions` does. -/
theorem filterRow_wp {w : World} {state : SuppressionState} {row : Row}
    {Q : Bool → World → Prop} {E : PyExc → World → Prop}
    (hp : w.store.pending = []) (hs : w.filterState = some state)
    (hok : ∀ n kept,
      filterDecisions (w.store.work.withholds rule.id cutoff) rule.suppressionKeyField
        state.seenInRun [row] = [(row, kept)] →
      Q kept (w.decided n rule.suppressionKeyField [(row, kept)]))
    (herr : ∀ e n, E e { w with ops := n }) :
    wp (filterRow env rule cutoff row) Q E w := by
  unfold filterRow
  by_cases hkey : rowSuppressionKey row rule.suppressionKeyField = ""
  · simp only [hkey, if_true, keepRow, wp_bind, noteAttempt, wp_modify, wp_pure]
    convert hok w.ops true (by simp [filterDecisions, hkey]) using 1
    simp [World.decided, World.note, SuppressionState.record, hkey]
  · simp only [hkey, if_false, wp_bind]
    refine getSuppressionRecord_wp hp (fun n => ?_) herr
    rw [wp_bind, wp_get]
    have hdef : (w.store.work.findSuppression rule.id
        (rowSuppressionKey row rule.suppressionKeyField)).any
          (fun record => cutoff ≤ record.lastSeenAt) =
        w.store.work.withholds rule.id cutoff
          (rowSuppressionKey row rule.suppressionKeyField) := rfl
    simp only [hs, Option.any_some, decide_eq_true_eq, hdef]
    by_cases hw : rowSuppressionKey row rule.suppressionKeyField ∈ state.seenInRun ∨
        w.store.work.withholds rule.id cutoff (rowSuppressionKey row rule.suppressionKeyField)
    · rw [if_pos hw]
      simp only [withholdRow, wp_bind, modifyFilterState, noteAttempt, wp_modify, wp_pure]
      convert hok n false (by simp [filterDecisions, hkey, hw]) using 1
      simp [World.decided, World.note, SuppressionState.record, hs, hkey]
    · rw [if_neg hw]
      simp only [keepRow, wp_bind, modifyFilterState, noteAttempt, wp_modify, wp_pure]
      convert hok n true (by simp [filterDecisions, hkey, hw]) using 1
      simp [World.decided, World.note, SuppressionState.record, hs, hkey]

/-- The decisions on a list of rows are those on its first and on the others, after the
first has been recorded. -/
theorem filterDecisions_cons {withholds : String → Bool} {field : String}
    {state : SuppressionState} {row : Row} {kept : Bool} (rest : List Row)
    (h : filterDecisions withholds field state.seenInRun [row] = [(row, kept)]) :
    filterDecisions withholds field state.seenInRun (row :: rest) =
      (row, kept) ::
        filterDecisions withholds field (state.record field [(row, kept)]).seenInRun rest := by
  simp only [filterDecisions] at h ⊢
  split at h
  case isTrue hkey =>
    cases h
    simp [hkey, SuppressionState.record]
  case isFalse hkey =>
    split at h
    case isTrue hw =>
      cases h
      simp [hkey, hw, SuppressionState.record]
    case isFalse hw =>
      cases h
      simp [hkey, hw, SuppressionState.record]

/-- **The loop of `filter_rows`.** -/
theorem filterRows_wp : ∀ {rows : List Row} {w : World} {state : SuppressionState}
    {Q : List Row → World → Prop} {E : PyExc → World → Prop},
    w.store.pending = [] → w.filterState = some state →
    (∀ n decisions, decisions = filterDecisions (w.store.work.withholds rule.id cutoff)
        rule.suppressionKeyField state.seenInRun rows →
      Q (rowsDecided true decisions) (w.decided n rule.suppressionKeyField decisions)) →
    (∀ e n made, made <+: filterDecisions (w.store.work.withholds rule.id cutoff)
        rule.suppressionKeyField state.seenInRun rows →
      E e (w.decided n rule.suppressionKeyField made)) →
    wp (filterRows env rule cutoff rows) Q E w
  | [], w, state, Q, E, _, _, hok, _ => by
      have h := hok w.ops [] rfl
      rw [World.decided_nil] at h
      exact h
  | row :: rest, w, state, Q, E, hp, hs, hok, herr => by
      unfold filterRows
      rw [wp_bind]
      refine filterRow_wp hp hs (fun n kept hd => ?_) fun e n => ?_
      · have hcons := filterDecisions_cons rest hd
        rw [wp_bind]
        have hstate : (w.decided n rule.suppressionKeyField [(row, kept)]).filterState =
            some (state.record rule.suppressionKeyField [(row, kept)]) := by
          simp [World.decided, hs]
        refine filterRows_wp hp hstate (fun m later hlater => ?_) fun e m made hmade => ?_
        · rw [World.decided_decided, wp_pure]
          subst hlater
          have h := hok m _ hcons.symm
          cases kept with
          | true => simpa using h
          | false => simpa using h
        · rw [World.decided_decided]
          refine herr e m _ ?_
          rw [hcons]
          exact List.prefix_cons_inj _ |>.mpr hmade
      · rw [← World.decided_nil w n rule.suppressionKeyField]
        exact herr e n [] List.nil_prefix

end EarlyWarning
