/-
# `LimiterTable` — what the critical sections do to the table

Everything is read through `Limiter.lookup`, the object a key has and what is in it.  The
table never gives one object to two keys, so a change to an object is a change to one
lookup, and the sections come down to two of them.  A key is *settled* when its object is
changed and then dropped if it is inactive; a table is *swept* when some keys have been
settled at the present moment.
-/
import EarlyWarning.LoginRateLimiter
import Mathlib.Algebra.Order.Ring.Rat
import Mathlib.Logic.Function.Iterate

namespace EarlyWarning

open Lib

/-! ## Expiry -/

section

variable {config : LimiterConfig} {state : AttemptState} {s t now : Rat}

@[simp] theorem expireState_references :
    (expireState config state now).references = state.references := by
  unfold expireState
  dsimp only
  split <;> rfl

@[simp] theorem expireState_gate : (expireState config state now).gate = state.gate := by
  unfold expireState
  dsimp only
  split <;> rfl

theorem dropWhile_dropWhile {failures : List Rat} (hle : s ≤ t) :
    (failures.dropWhile (· ≤ s)).dropWhile (· ≤ t) = failures.dropWhile (· ≤ t) := by
  induction failures with
  | nil => rfl
  | cons x rest ih =>
      by_cases hx : x ≤ s
      · rw [List.dropWhile_cons_of_pos (by simpa using hx),
          List.dropWhile_cons_of_pos (by simpa using le_trans hx hle), ih]
      · rw [List.dropWhile_cons_of_neg (by simpa using hx)]

/-- A lock that has run out takes the failures with it. -/
theorem expireState_of_over (h : state.lockedUntil ≠ 0 ∧ state.lockedUntil ≤ now) :
    expireState config state now = { state with lockedUntil := 0, failures := [] } := by
  simp [expireState, h]

theorem expireState_of_not_over (h : ¬(state.lockedUntil ≠ 0 ∧ state.lockedUntil ≤ now)) :
    expireState config state now =
      { state with failures :=
          state.failures.dropWhile (· ≤ now - config.failureWindowSeconds) } := by
  unfold expireState
  rw [if_neg h]

/-- Expiry at one moment is lost in the expiry at a later one. -/
theorem expireState_expireState (hle : s ≤ t) :
    expireState config (expireState config state s) t = expireState config state t := by
  by_cases hs : state.lockedUntil ≠ 0 ∧ state.lockedUntil ≤ s
  · rw [expireState_of_over hs, expireState_of_over ⟨hs.1, le_trans hs.2 hle⟩,
      expireState_of_not_over (by simp)]
    rfl
  · rw [expireState_of_not_over hs]
    by_cases ht : state.lockedUntil ≠ 0 ∧ state.lockedUntil ≤ t
    · rw [expireState_of_over ht]
      exact expireState_of_over ht
    · rw [expireState_of_not_over ht]
      rw [← dropWhile_dropWhile (sub_le_sub_right hle (config.failureWindowSeconds : Rat))]
      exact expireState_of_not_over ht

end

/-! ## Lookups -/

variable {κ : Type} [DecidableEq κ] {config : LimiterConfig}

/-- The object a key has, and what is in it. -/
def Limiter.lookup (L : Limiter κ) (key : κ) : Option (ObjId × AttemptState) :=
  (L.states.get? key).map fun o => (o, L.heap o)

/-- The object is changed, and dropped when that makes it inactive. -/
def settled (f : AttemptState → AttemptState) (entry : Option (ObjId × AttemptState)) :
    Option (ObjId × AttemptState) :=
  (entry.map fun e => (e.1, f e.2)).filter fun e => ¬e.2.Inactive

/-- The table is one that the limiter can have made. -/
structure Limiter.WellFormed (config : LimiterConfig) (L : Limiter κ) : Prop where
  bounded : (L.states.size : Int) ≤ config.maxStates
  made : ∀ k o, L.states.get? k = some o → o < L.nextObj
  distinct : ∀ k k' o, L.states.get? k = some o → L.states.get? k' = some o → k = k'

/-- No state that is inactive is left in the table. -/
def Limiter.Tidy (L : Limiter κ) : Prop :=
  ∀ k o state, L.lookup k = some (o, state) → ¬state.Inactive

variable {L L' : Limiter κ} {key k : κ} {o : ObjId} {state : AttemptState}
  {f : AttemptState → AttemptState} {now : Rat}

theorem lookup_eq_some :
    L.lookup k = some (o, state) ↔ L.states.get? k = some o ∧ L.heap o = state := by
  unfold Limiter.lookup
  cases L.states.get? k with
  | none => simp
  | some o' =>
      simp only [Option.map_some, Option.some.injEq, Prod.mk.injEq]
      constructor
      · rintro ⟨rfl, rfl⟩
        exact ⟨rfl, rfl⟩
      · rintro ⟨rfl, rfl⟩
        exact ⟨rfl, rfl⟩

theorem lookup_eq_none : L.lookup k = none ↔ L.states.get? k = none :=
  Option.map_eq_none_iff

theorem get?_of_lookup (h : L.lookup k = some (o, state)) : L.states.get? k = some o :=
  (lookup_eq_some.mp h).1

theorem lookup_of_get? (h : L.states.get? k = some o) : L.lookup k = some (o, L.heap o) :=
  lookup_eq_some.mpr ⟨h, rfl⟩

@[simp] theorem settled_none : settled f none = none := rfl

theorem settled_some :
    settled f (some (o, state)) = if (f state).Inactive then none else some (o, f state) := by
  unfold settled
  rw [Option.map_some, Option.filter_some]
  by_cases h : (f state).Inactive <;> simp [h]

theorem settled_eq_some {entry : Option (ObjId × AttemptState)} :
    settled f entry = some (o, state) ↔
      ∃ old, entry = some (o, old) ∧ state = f old ∧ ¬(f old).Inactive := by
  cases entry with
  | none => simp
  | some e =>
      obtain ⟨o', old⟩ := e
      rw [settled_some]
      by_cases h : (f old).Inactive
      · rw [if_pos h]
        constructor
        · intro hnone
          cases hnone
        · rintro ⟨old', heq, -, hactive⟩
          cases heq
          exact absurd h hactive
      · rw [if_neg h]
        constructor
        · intro heq
          cases heq
          exact ⟨old, rfl, rfl, h⟩
        · rintro ⟨old', heq, rfl, -⟩
          cases heq
          rfl

/-- Settling twice is settling once, when the change made twice is the second one. -/
theorem settled_settled {g : AttemptState → AttemptState}
    (hgf : ∀ state, g (f state) = g state)
    (hinactive : ∀ state, (f state).Inactive → (g state).Inactive)
    (entry : Option (ObjId × AttemptState)) :
    settled g (settled f entry) = settled g entry := by
  cases entry with
  | none => rfl
  | some e =>
      obtain ⟨o, state⟩ := e
      by_cases h : (f state).Inactive
      · rw [settled_some, settled_some, if_pos h, if_pos (hinactive state h)]
        rfl
      · rw [settled_some, if_neg h, settled_some, settled_some, hgf]

/-! ## Changes of one object -/

theorem Limiter.WellFormed.shrink (h : L.WellFormed config) (hnext : L'.nextObj = L.nextObj)
    (hsize : L'.states.size ≤ L.states.size)
    (hsub : ∀ k o, L'.states.get? k = some o → L.states.get? k = some o) :
    L'.WellFormed config where
  bounded := le_trans (by exact_mod_cast hsize) h.bounded
  made := fun k o hk => hnext ▸ h.made k o (hsub k o hk)
  distinct := fun k k' o hk hk' => h.distinct k k' o (hsub k o hk) (hsub k' o hk')

theorem Limiter.WellFormed.modify (h : L.WellFormed config) (o : ObjId)
    (f : AttemptState → AttemptState) : (L.modify o f).WellFormed config :=
  ⟨h.bounded, h.made, h.distinct⟩

theorem lookup_modify_self (hk : L.lookup k = some (o, state)) :
    (L.modify o f).lookup k = some (o, f state) := by
  obtain ⟨hget, hheap⟩ := lookup_eq_some.mp hk
  refine lookup_eq_some.mpr ⟨hget, ?_⟩
  simp only [Limiter.modify, if_pos]
  rw [hheap]

theorem lookup_modify_ne (h : L.WellFormed config) (hkey : L.states.get? key = some o)
    (hne : k ≠ key) : (L.modify o f).lookup k = L.lookup k := by
  cases hk : L.lookup k with
  | none => exact lookup_eq_none.mpr (show L.states.get? k = none from lookup_eq_none.mp hk)
  | some e =>
      obtain ⟨o', state⟩ := e
      obtain ⟨hget, hheap⟩ := lookup_eq_some.mp hk
      have hobj : o' ≠ o := fun heq => hne (h.distinct k key o (heq ▸ hget) hkey)
      refine lookup_eq_some.mpr ⟨hget, ?_⟩
      simp only [Limiter.modify, if_neg hobj]
      exact hheap

/-- `L'` is `L` with the state of one key settled. -/
structure Settles (f : AttemptState → AttemptState) (key : κ) (L L' : Limiter κ) : Prop where
  nextObj : L'.nextObj = L.nextObj
  size : L'.states.size ≤ L.states.size
  /-- a state that goes makes room -/
  room : L'.lookup key = none → L.lookup key ≠ none → L'.states.size < L.states.size
  here : L'.lookup key = settled f (L.lookup key)
  elsewhere : ∀ k, k ≠ key → L'.lookup k = L.lookup k

theorem Settles.wellFormed (h : Settles f key L L') (hwf : L.WellFormed config) :
    L'.WellFormed config := by
  refine hwf.shrink h.nextObj h.size fun k o hk => ?_
  have hlookup := lookup_of_get? hk
  by_cases hkey : k = key
  · rw [hkey] at hlookup ⊢
    rw [h.here] at hlookup
    obtain ⟨old, hold, -⟩ := settled_eq_some.mp hlookup
    exact get?_of_lookup hold
  · rw [h.elsewhere k hkey] at hlookup
    exact get?_of_lookup hlookup

/-- The object of a key is changed and then discarded if it is inactive. -/
theorem settles_discardIfInactive (hwf : L.WellFormed config)
    (hkey : L.states.get? key = some o) :
    Settles f key L (discardIfInactive (L.modify o f) key o) := by
  have hself := lookup_modify_self (f := f) (lookup_of_get? hkey)
  unfold discardIfInactive
  by_cases hinactive : (f (L.heap o)).Inactive
  case pos =>
    rw [if_pos ⟨hkey, by simpa [Limiter.modify] using hinactive⟩]
    refine ⟨rfl, OrderedDict.size_erase_le, fun _ _ => OrderedDict.size_erase_lt hkey, ?_,
      fun k hne => ?_⟩
    · rw [lookup_of_get? hkey, settled_some, if_pos hinactive]
      exact lookup_eq_none.mpr OrderedDict.get?_erase_self
    · have hget : ((L.modify o f).states.erase key).get? k = L.states.get? k :=
        OrderedDict.get?_erase_ne hne
      rw [← lookup_modify_ne hwf hkey hne (f := f)]
      simp only [Limiter.lookup, hget]
      rfl
  case neg =>
    rw [if_neg fun h => hinactive (by simpa [Limiter.modify] using h.2)]
    refine ⟨rfl, le_refl _, fun hnone _ => ?_, ?_, fun k hne => lookup_modify_ne hwf hkey hne⟩
    · rw [hself] at hnone
      cases hnone
    · rw [hself, lookup_of_get? hkey, settled_some, if_neg hinactive]

/-! ## The cleanup -/

/-- `L'` is `L` with the states of some keys settled at the moment `now`. -/
structure Swept (config : LimiterConfig) (now : Rat) (L L' : Limiter κ) : Prop where
  nextObj : L'.nextObj = L.nextObj
  size : L'.states.size ≤ L.states.size
  room : ∀ k, L'.lookup k = none → L.lookup k ≠ none → L'.states.size < L.states.size
  lookup : ∀ k, L'.lookup k = L.lookup k ∨
    L'.lookup k = settled (fun s => expireState config s now) (L.lookup k)

theorem Swept.refl (L : Limiter κ) : Swept config now L L :=
  ⟨rfl, le_refl _, fun _ hnone hsome => absurd hnone hsome, fun _ => .inl rfl⟩

theorem settled_expire_expire (entry : Option (ObjId × AttemptState)) :
    settled (fun s => expireState config s now)
        (settled (fun s => expireState config s now) entry) =
      settled (fun s => expireState config s now) entry :=
  settled_settled (fun _ => expireState_expireState (le_refl now)) (fun _ h => h) entry

/-- What a swept table has for a key is settled like what was there before. -/
theorem Swept.settled_lookup (h : Swept config now L L') (k : κ) :
    settled (fun s => expireState config s now) (L'.lookup k) =
      settled (fun s => expireState config s now) (L.lookup k) := by
  rcases h.lookup k with heq | heq
  · rw [heq]
  · rw [heq, settled_expire_expire]

theorem Swept.trans {L₁ L₂ L₃ : Limiter κ} (h₁ : Swept config now L₁ L₂)
    (h₂ : Swept config now L₂ L₃) : Swept config now L₁ L₃ where
  nextObj := h₂.nextObj.trans h₁.nextObj
  size := le_trans h₂.size h₁.size
  room := fun k hnone hsome => by
    by_cases h : L₂.lookup k = none
    · exact lt_of_le_of_lt h₂.size (h₁.room k h hsome)
    · exact lt_of_lt_of_le (h₂.room k hnone h) h₁.size
  lookup := fun k => by
    rcases h₂.lookup k with heq | heq
    · rw [heq]
      exact h₁.lookup k
    · rw [heq, h₁.settled_lookup]
      exact .inr rfl

theorem Settles.swept (h : Settles (fun s => expireState config s now) key L L') :
    Swept config now L L' where
  nextObj := h.nextObj
  size := h.size
  room := fun k hnone hsome => by
    by_cases hk : k = key
    · subst hk
      exact h.room hnone hsome
    · rw [h.elsewhere k hk] at hnone
      exact absurd hnone hsome
  lookup := fun k => by
    by_cases hk : k = key
    · exact .inr (hk ▸ h.here)
    · exact .inl (h.elsewhere k hk)

theorem Swept.wellFormed (h : Swept config now L L') (hwf : L.WellFormed config) :
    L'.WellFormed config := by
  refine hwf.shrink h.nextObj h.size fun k o hk => ?_
  have hlookup := lookup_of_get? hk
  rcases h.lookup k with heq | heq
  · exact get?_of_lookup (heq ▸ hlookup)
  · obtain ⟨old, hold, -⟩ := settled_eq_some.mp (heq ▸ hlookup)
    exact get?_of_lookup hold

theorem Swept.tidy (h : Swept config now L L') (htidy : L.Tidy) : L'.Tidy := by
  intro k o state hk
  rcases h.lookup k with heq | heq
  · exact htidy k o state (heq ▸ hk)
  · obtain ⟨old, -, rfl, hactive⟩ := settled_eq_some.mp (heq ▸ hk)
    exact hactive

/-- One turn of the loop settles the oldest key. -/
theorem cleanupOldest_swept (hwf : L.WellFormed config) :
    Swept config now L (cleanupOldest config now L) := by
  unfold cleanupOldest
  cases hpop : L.states.popFirst with
  | none => exact Swept.refl L
  | some entry =>
      obtain ⟨⟨key, state⟩, rest⟩ := entry
      obtain ⟨hkey, rfl⟩ := OrderedDict.popFirst_spec hpop
      have hself := lookup_modify_self (f := fun s => expireState config s now)
        (lookup_of_get? hkey)
      dsimp only
      refine @Settles.swept _ _ _ _ _ key _ ?_
      -- the lookups of the other keys, whatever becomes of the state taken out
      have helse : ∀ k, k ≠ key → ∀ states : OrderedDict κ ObjId,
          states.get? k = (L.states.erase key).get? k →
          ({ (L.modify state fun s => expireState config s now) with states } :
            Limiter κ).lookup k = L.lookup k := by
        intro k hne states hget
        rw [OrderedDict.get?_erase_ne hne] at hget
        rw [← lookup_modify_ne hwf hkey hne (f := fun s => expireState config s now)]
        simp only [Limiter.lookup, hget]
        rfl
      have hheap : (({ L with states := L.states.erase key } : Limiter κ).modify state
          fun s => expireState config s now).heap state =
            expireState config (L.heap state) now := by
        simp [Limiter.modify]
      rw [hheap]
      by_cases hinactive : (expireState config (L.heap state) now).Inactive
      case pos =>
        rw [if_pos hinactive]
        refine ⟨rfl, OrderedDict.size_erase_le, fun _ _ => OrderedDict.size_erase_lt hkey, ?_,
          fun k hne => helse k hne _ rfl⟩
        rw [lookup_of_get? hkey, settled_some, if_pos hinactive]
        exact lookup_eq_none.mpr OrderedDict.get?_erase_self
      case neg =>
        rw [if_neg hinactive]
        have hsize : ((L.states.erase key).set key state).size ≤ L.states.size := by
          rw [OrderedDict.size_set_new OrderedDict.get?_erase_self]
          exact OrderedDict.size_erase_lt hkey
        have hhere : ({ (L.modify state fun s => expireState config s now) with
            states := (L.states.erase key).set key state } : Limiter κ).lookup key =
              some (state, expireState config (L.heap state) now) :=
          lookup_eq_some.mpr ⟨OrderedDict.get?_set_self, by simp [Limiter.modify]⟩
        refine ⟨rfl, hsize, fun hnone => ?_, ?_, fun k hne =>
          helse k hne _ (OrderedDict.get?_set_ne hne)⟩
        · exact absurd (hhere.symm.trans hnone) (by simp)
        · rw [lookup_of_get? hkey, settled_some, if_neg hinactive]
          exact hhere

theorem cleanupOldest_iterate_swept (hwf : L.WellFormed config) (n : Nat) :
    Swept config now L ((cleanupOldest config now)^[n] L) := by
  induction n with
  | zero => exact Swept.refl L
  | succ n ih =>
      rw [Function.iterate_succ_apply']
      exact ih.trans (cleanupOldest_swept (ih.wellFormed hwf))

theorem runScheduledCleanup_swept (hwf : L.WellFormed config) (now : Rat) :
    Swept config now L (runScheduledCleanup config L now) := by
  unfold runScheduledCleanup
  by_cases hdue : now < L.nextCleanupAt
  · rw [if_pos hdue]
    exact Swept.refl L
  · rw [if_neg hdue]
    have hset : Swept config now L
        { L with nextCleanupAt := now + config.cleanupIntervalSeconds } :=
      ⟨rfl, le_refl _, fun _ hnone hsome => absurd hnone hsome, fun _ => .inl rfl⟩
    exact hset.trans (cleanupOldest_iterate_swept (hset.wellFormed hwf) _)

/-! ## The state of a key -/

theorem currentState_settles (hwf : L.WellFormed config) (key : κ) (now : Rat) :
    Settles (fun s => expireState config s now) key L (currentState config L key now).2 := by
  unfold currentState
  cases hkey : L.states.get? key with
  | none =>
      have hnone := lookup_eq_none.mpr hkey
      exact ⟨rfl, le_refl _, fun _ hsome => absurd hnone hsome,
        by rw [hnone, settled_none], fun _ _ => rfl⟩
  | some o => exact settles_discardIfInactive hwf hkey

theorem currentState_of_none (h : L.lookup key = none) :
    currentState config L key now = (none, L) := by
  unfold currentState
  rw [lookup_eq_none.mp h]

theorem currentState_fst (L : Limiter κ) (key : κ) (now : Rat) :
    (currentState config L key now).1 = (currentState config L key now).2.states.get? key := by
  unfold currentState
  cases hkey : L.states.get? key with
  | none => exact hkey.symm
  | some o => rfl

/-- What the sections that need a state for `key` have done when they have one. -/
structure Obtained (config : LimiterConfig) (now : Rat) (key : κ) (L : Limiter κ) (o : ObjId)
    (state : AttemptState) (L' : Limiter κ) : Prop where
  wellFormed : L'.WellFormed config
  here : L'.lookup key = some (o, state)
  /-- the state there was, or a new one -/
  origin : settled (fun s => expireState config s now) (L.lookup key) = some (o, state) ∨
    (settled (fun s => expireState config s now) (L.lookup key) = none ∧
      o = L.nextObj ∧ state = {})
  elsewhere : ∀ k, k ≠ key → L'.lookup k = L.lookup k ∨
    L'.lookup k = settled (fun s => expireState config s now) (L.lookup k)

/-- There is room for a new state. -/
theorem reserveState_wellFormed (hwf : L.WellFormed config)
    (hroom : ¬config.maxStates ≤ L.states.size) (hkey : L.states.get? key = none) :
    Limiter.WellFormed config { L.modify L.nextObj fun _ => {} with
      states := L.states.set key L.nextObj
      nextObj := L.nextObj + 1 } where
  bounded := by
    show ((L.states.set key L.nextObj).size : Int) ≤ config.maxStates
    rw [OrderedDict.size_set_new hkey]
    push_cast
    omega
  made := fun k o hk => by
    by_cases hne : k = key
    · rw [hne, OrderedDict.get?_set_self] at hk
      cases hk
      exact Nat.lt_succ_self _
    · rw [OrderedDict.get?_set_ne hne] at hk
      exact Nat.lt_succ_of_lt (hwf.made k o hk)
  distinct := fun k k' o hk hk' => by
    simp only [OrderedDict.get?_set] at hk hk'
    by_cases hne : k = key <;> by_cases hne' : k' = key
    · rw [hne, hne']
    · rw [if_pos hne] at hk
      rw [if_neg hne'] at hk'
      cases hk
      exact absurd (hwf.made k' _ hk') (lt_irrefl _)
    · rw [if_neg hne] at hk
      rw [if_pos hne'] at hk'
      cases hk'
      exact absurd (hwf.made k _ hk) (lt_irrefl _)
    · rw [if_neg hne] at hk
      rw [if_neg hne'] at hk'
      exact hwf.distinct k k' o hk hk'

theorem lookup_reserveState_ne (hwf : L.WellFormed config) (hne : k ≠ key) :
    Limiter.lookup { L.modify L.nextObj fun _ => {} with
      states := L.states.set key L.nextObj
      nextObj := L.nextObj + 1 } k = L.lookup k := by
  unfold Limiter.lookup
  rw [OrderedDict.get?_set_ne hne]
  refine Option.map_congr fun o ho => ?_
  have hobj : o ≠ L.nextObj := (hwf.made k o ho).ne
  simp [Limiter.modify, hobj]

/-- A section that needs a state gets the one there is, or a new one, or finds that the
table is full. -/
theorem obtainState_spec (hwf : L.WellFormed config) (key : κ) (now : Rat) :
    (∃ o state L', obtainState config (runScheduledCleanup config L now) key now = (some o, L') ∧
      Obtained config now key L o state L') ∨
    (obtainState config (runScheduledCleanup config L now) key now =
        (none, runScheduledCleanup config L now) ∧
      (runScheduledCleanup config L now).lookup key = none ∧
      config.maxStates ≤ (runScheduledCleanup config L now).states.size) := by
  have hswept := runScheduledCleanup_swept hwf now
  have hwf₁ := hswept.wellFormed hwf
  generalize runScheduledCleanup config L now = L₁ at hswept hwf₁ ⊢
  have hsettles := currentState_settles hwf₁ key now
  have hfst : (currentState config L₁ key now).1 =
      (currentState config L₁ key now).2.states.get? key := currentState_fst L₁ key now
  have hwf₂ := hsettles.wellFormed hwf₁
  have hsweep := hswept.trans hsettles.swept
  have hhere := hsettles.here.trans (hswept.settled_lookup key)
  have hsame : L₁.lookup key = none → currentState config L₁ key now = (none, L₁) :=
    currentState_of_none
  unfold obtainState
  generalize currentState config L₁ key now = r at hsettles hfst hwf₂ hsweep hhere hsame ⊢
  obtain ⟨found, L₂⟩ := r
  dsimp only at hsettles hfst hwf₂ hsweep hhere ⊢
  cases found with
  | some o =>
      have hlookup := lookup_of_get? hfst.symm
      exact .inl ⟨o, L₂.heap o, L₂, rfl, hwf₂, hlookup, .inl (hhere.symm.trans hlookup),
        fun k _ => hsweep.lookup k⟩
  | none =>
      have hnone : L₂.lookup key = none := lookup_eq_none.mpr hfst.symm
      dsimp only
      unfold reserveState
      by_cases hfull : config.maxStates ≤ L₂.states.size
      case neg =>
        rw [if_neg hfull]
        refine .inl ⟨L₂.nextObj, {}, _, rfl, reserveState_wellFormed hwf₂ hfull hfst.symm,
          lookup_eq_some.mpr ⟨OrderedDict.get?_set_self, by simp [Limiter.modify]⟩,
          .inr ⟨hhere.symm.trans hnone, hsweep.nextObj, rfl⟩, fun k hne => ?_⟩
        rw [lookup_reserveState_ne hwf₂ hne]
        exact hsweep.lookup k
      case pos =>
        rw [if_pos hfull]
        -- had a state been dropped for the key, there would be room
        have hnone₁ : L₁.lookup key = none := by
          by_contra hsome
          have hroom := hsettles.room hnone hsome
          have hbound := hwf₁.bounded
          omega
        obtain rfl : L₂ = L₁ := congrArg Prod.snd (hsame hnone₁)
        exact .inr ⟨rfl, hnone₁, hfull⟩

/-! ## The critical sections -/

theorem attemptEnter_spec (hwf : L.WellFormed config) (key : κ) (now : Rat) :
    (∃ o state L', attemptEnter config L key now =
        (some o, L'.modify o fun s => { s with references := s.references + 1 }) ∧
      Obtained config now key L o state L') ∨
    (attemptEnter config L key now = (none, runScheduledCleanup config L now) ∧
      (runScheduledCleanup config L now).lookup key = none ∧
      config.maxStates ≤ (runScheduledCleanup config L now).states.size) := by
  unfold attemptEnter
  rcases obtainState_spec hwf key now with ⟨o, state, L', heq, hobtained⟩ | ⟨heq, hfull⟩
  · exact .inl ⟨o, state, L', by rw [heq], hobtained⟩
  · exact .inr ⟨by rw [heq], hfull⟩

/-- A full table has nothing for a key it does not hold. -/
theorem attemptEnter_full
    (hfull : config.maxStates ≤ (runScheduledCleanup config L now).states.size)
    (hnone : (runScheduledCleanup config L now).lookup key = none) :
    attemptEnter config L key now = (none, runScheduledCleanup config L now) := by
  unfold attemptEnter obtainState reserveState
  rw [currentState_of_none hnone]
  dsimp only
  rw [if_pos hfull]

theorem recordFailure_spec (hwf : L.WellFormed config) (key : κ) (now : Rat) :
    (∃ o state L', (recordFailure config L key now).2 =
        L'.modify o (fun s => addFailure config s now) ∧
      Obtained config now key L o state L') ∨
    ((recordFailure config L key now).2 = runScheduledCleanup config L now ∧
      (runScheduledCleanup config L now).lookup key = none ∧
      config.maxStates ≤ (runScheduledCleanup config L now).states.size) := by
  unfold recordFailure
  rcases obtainState_spec hwf key now with ⟨o, state, L', heq, hobtained⟩ | ⟨heq, hfull⟩
  · exact .inl ⟨o, state, L', by rw [heq], hobtained⟩
  · exact .inr ⟨by rw [heq], hfull⟩

theorem retryAfter_swept (hwf : L.WellFormed config) (key : κ) (now : Rat) :
    Swept config now L (retryAfter config L key now).2 := by
  have hswept := runScheduledCleanup_swept hwf now
  have h := hswept.trans (currentState_settles (hswept.wellFormed hwf) key now).swept
  unfold retryAfter
  generalize currentState config (runScheduledCleanup config L now) key now = r at h ⊢
  obtain ⟨found, L'⟩ := r
  cases found with
  | some o => exact h
  | none => exact h

/-- What `clear` makes of a state. -/
def cleared (state : AttemptState) : AttemptState :=
  { state with failures := [], lockedUntil := 0 }

theorem clear_settles (hwf : L.WellFormed config) (key : κ) :
    Settles cleared key L (clear L key) := by
  unfold clear
  cases hkey : L.states.get? key with
  | none =>
      have hnone := lookup_eq_none.mpr hkey
      exact ⟨rfl, le_refl _, fun _ hsome => absurd hnone hsome,
        by rw [hnone, settled_none], fun _ _ => rfl⟩
  | some o => exact settles_discardIfInactive hwf hkey

/-! ## No inactive state is left -/

theorem Limiter.Tidy.settles (htidy : L.Tidy) (h : Settles f key L L') : L'.Tidy := by
  intro k o state hk
  by_cases hkey : k = key
  · rw [hkey, h.here] at hk
    obtain ⟨old, -, rfl, hactive⟩ := settled_eq_some.mp hk
    exact hactive
  · rw [h.elsewhere k hkey] at hk
    exact htidy k o state hk

/-- The object of a key is changed into one that is not inactive. -/
theorem Limiter.Tidy.modify (hwf : L.WellFormed config) (htidy : L.Tidy)
    (hkey : L.lookup key = some (o, state)) (hactive : ¬(f state).Inactive) :
    (L.modify o f).Tidy := by
  intro k o' state' hk
  by_cases hne : k = key
  · rw [hne, lookup_modify_self hkey] at hk
    cases hk
    exact hactive
  · rw [lookup_modify_ne hwf (get?_of_lookup hkey) hne] at hk
    exact htidy k o' state' hk

/-- The object that was obtained is changed into one that is not inactive. -/
theorem Limiter.Tidy.obtained (htidy : L.Tidy)
    (h : Obtained config now key L o state L') (hactive : ¬(f state).Inactive) :
    (L'.modify o f).Tidy := by
  intro k o' state' hk
  by_cases hne : k = key
  · rw [hne, lookup_modify_self h.here] at hk
    cases hk
    exact hactive
  · rw [lookup_modify_ne h.wellFormed (get?_of_lookup h.here) hne] at hk
    rcases h.elsewhere k hne with heq | heq
    · exact htidy k o' state' (heq ▸ hk)
    · obtain ⟨old, -, rfl, hactive'⟩ := settled_eq_some.mp (heq ▸ hk)
      exact hactive'

theorem addFailure_active (state : AttemptState) (now : Rat) :
    ¬(addFailure config state now).Inactive := by
  rintro ⟨-, hfailures, -⟩
  unfold addFailure at hfailures
  dsimp only at hfailures
  split at hfailures <;> simp at hfailures

@[simp] theorem addFailure_references :
    (addFailure config state now).references = state.references := by
  unfold addFailure
  dsimp only
  split <;> rfl

@[simp] theorem addFailure_gate : (addFailure config state now).gate = state.gate := by
  unfold addFailure
  dsimp only
  split <;> rfl

end EarlyWarning
