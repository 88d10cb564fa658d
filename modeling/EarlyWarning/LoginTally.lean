/-
# `LoginTally` — the state of a key and the policy

The limiter trims what it stores and the policy stores everything, so the two are compared
by what they say at a moment (`Agrees`): the failures that count then, and the lock.  A state
that is absent says what an empty one says, which is why expiry, the cleanup and the drop of
an inactive state are invisible here.
-/
import EarlyWarning.LimiterTable
import EarlyWarning.Lib.Lockout

namespace EarlyWarning

open Lib Lib.Lockout

/-- The policy that the settings describe. -/
def LimiterConfig.policy (config : LimiterConfig) : Policy Rat where
  limit := config.maxFailures.toNat
  window := config.failureWindowSeconds
  lockout := config.lockoutSeconds

/-- What the limiter says of a key at the moment `t`: the failures that count, and the end
of the lock, `0` when there is none. -/
def seen (config : LimiterConfig) (entry : Option (ObjId × AttemptState)) (t : Rat) :
    List Rat × Rat :=
  match entry with
  | none => ([], 0)
  | some (_, state) =>
      ((expireState config state t).failures, (expireState config state t).lockedUntil)

/-- The limiter says of a key what the policy says, from the moment `now` on. -/
def Agrees (config : LimiterConfig) (entry : Option (ObjId × AttemptState)) (τ : Tally Rat)
    (now : Rat) : Prop :=
  ∀ t, now ≤ t → seen config entry t = (τ.recent config.policy t, (τ.at t).lockedUntil.getD 0)

variable {config : LimiterConfig} {entry : Option (ObjId × AttemptState)} {τ : Tally Rat}
  {state state' : AttemptState} {o : ObjId} {s t now : Rat}

theorem Agrees.later (h : Agrees config entry τ s) (hle : s ≤ t) : Agrees config entry τ t :=
  fun u hu => h u (le_trans hle hu)

theorem agrees_none : Agrees config none .fresh now := fun _ _ => rfl

/-! ## What the policy does not see -/

/-- Expiry changes nothing that is said later. -/
theorem seen_settled (hle : now ≤ t) :
    seen config (settled (fun s => expireState config s now) entry) t = seen config entry t := by
  cases entry with
  | none => rfl
  | some e =>
      obtain ⟨o, state⟩ := e
      have hlater : expireState config (expireState config state now) t =
          expireState config state t := expireState_expireState hle
      rw [settled_some]
      by_cases hinactive : (expireState config state now).Inactive
      · rw [if_pos hinactive]
        obtain ⟨-, hfailures, hlock⟩ := hinactive
        have hfresh : (expireState config (expireState config state now) t).failures = [] ∧
            (expireState config (expireState config state now) t).lockedUntil = 0 := by
          rw [expireState_of_not_over (by simp [hlock])]
          exact ⟨by simp [hfailures], hlock⟩
        rw [hlater] at hfresh
        exact (Prod.ext hfresh.1 hfresh.2).symm
      · rw [if_neg hinactive]
        simp only [seen, hlater]

theorem Agrees.settled (h : Agrees config entry τ s) (hle : s ≤ now) :
    Agrees config (settled (fun s => expireState config s now) entry) τ now := fun t ht => by
  rw [seen_settled ht]
  exact h t (le_trans hle ht)

/-- The references and the gate are not part of it. -/
theorem seen_congr (hfailures : state'.failures = state.failures)
    (hlock : state'.lockedUntil = state.lockedUntil) :
    seen config (some (o, state')) t = seen config (some (o, state)) t := by
  unfold seen expireState
  simp only [hlock]
  by_cases h : state.lockedUntil ≠ 0 ∧ state.lockedUntil ≤ t
  · simp [h]
  · simp only [if_neg h, hfailures, hlock]

theorem Agrees.congr (h : Agrees config (some (o, state)) τ now)
    (hfailures : state'.failures = state.failures)
    (hlock : state'.lockedUntil = state.lockedUntil) :
    Agrees config (some (o, state')) τ now := fun t ht => by
  rw [seen_congr hfailures hlock]
  exact h t ht

theorem Agrees.expired (h : Agrees config (some (o, state)) τ s) (hle : s ≤ now) :
    Agrees config (some (o, expireState config state now)) τ now := fun t ht => by
  simp only [seen, expireState_expireState ht]
  exact h t (le_trans hle ht)

theorem Agrees.obtained {κ : Type} [DecidableEq κ] {L L' : Limiter κ} {key : κ}
    (h : Agrees config (L.lookup key) τ s) (hle : s ≤ now)
    (hobtained : Obtained config now key L o state L') :
    Agrees config (some (o, state)) τ now := by
  have hsettled := h.settled hle
  rcases hobtained.origin with heq | ⟨heq, -, rfl⟩ <;> rw [heq] at hsettled
  · exact hsettled
  · intro t ht
    rw [← hsettled t ht]
    simp [seen, expireState]

/-- After a `clear` there is nothing to say. -/
theorem agrees_cleared : Agrees config (EarlyWarning.settled cleared entry) .fresh now := by
  intro t _
  cases entry with
  | none => rfl
  | some e =>
      obtain ⟨o, state⟩ := e
      rw [settled_some]
      by_cases hinactive : (cleared state).Inactive
      · rw [if_pos hinactive]
        rfl
      · rw [if_neg hinactive]
        simp [seen, expireState, cleared, Tally.recent, Policy.recent, Tally.fresh, Tally.at]

/-! ## A failure -/

theorem dropWhile_eq_filter {failures : List Rat} {cutoff : Rat}
    (h : failures.Pairwise (· ≤ ·)) :
    failures.dropWhile (· ≤ cutoff) = failures.filter (cutoff < ·) := by
  induction failures with
  | nil => rfl
  | cons x rest ih =>
      obtain ⟨hx, hrest⟩ := List.pairwise_cons.mp h
      by_cases hle : x ≤ cutoff
      · rw [List.dropWhile_cons_of_pos (by simpa using hle), ih hrest,
          List.filter_cons_of_neg (by simpa using hle)]
      · have hlt := not_le.mp hle
        have hall : ∀ y ∈ x :: rest, (decide (cutoff < y)) = true := by
          intro y hy
          rcases List.mem_cons.mp hy with rfl | hy
          · simpa using hlt
          · simpa using lt_of_lt_of_le hlt (hx y hy)
        rw [List.dropWhile_cons_of_neg (by simpa using hlt), List.filter_eq_self.mpr hall]

/-- What is left later of the failures that count now are those that count then. -/
theorem recent_dropWhile {P : Policy Rat} {failures : List Rat}
    (hsorted : failures.Pairwise (· ≤ ·)) (hpast : ∀ x ∈ failures, x ≤ now) (hle : now ≤ t) :
    (P.recent failures now).dropWhile (· ≤ t - P.window) = P.recent failures t := by
  unfold Policy.recent
  rw [dropWhile_eq_filter (hsorted.sublist List.filter_sublist), List.filter_filter]
  refine List.filter_congr fun x hx => ?_
  have hx' := hpast x hx
  by_cases h : t - P.window < x
  · simp [h, hx', le_trans hx' hle, show now - P.window < x by linarith]
  · simp [h]

/-- A failure counts at once. -/
theorem recent_snoc {P : Policy Rat} {failures : List Rat} (hwindow : 0 < P.window) :
    P.recent (failures ++ [now]) now = P.recent failures now ++ [now] := by
  simp [Policy.recent, List.filter_append, hwindow]

/-- The limiter and the policy lock together. -/
theorem Agrees.fail (h : Agrees config (some (o, state)) τ now)
    (hexpired : expireState config state now = state)
    (hunlocked : (τ.at now).lockedUntil = none)
    (hsorted : τ.failures.Pairwise (· ≤ ·)) (hpast : ∀ x ∈ τ.failures, x ≤ now)
    (hmax : 1 ≤ config.maxFailures) (hwindow : 1 ≤ config.failureWindowSeconds)
    (hlockout : 1 ≤ config.lockoutSeconds) (hnow : 0 ≤ now) :
    Agrees config (some (o, addFailure config state now)) (τ.fail config.policy now) now := by
  obtain ⟨hfailures, hlock⟩ := Prod.mk.inj (h now (le_refl now))
  rw [hexpired] at hfailures hlock
  rw [hunlocked] at hlock
  have hlimit : (config.policy.limit : Int) = config.maxFailures :=
    Int.toNat_of_nonneg (by omega)
  have hwin : config.policy.window = config.failureWindowSeconds := rfl
  have hwindow' : (0 : Rat) < config.policy.window := by
    have : (1 : Rat) ≤ config.failureWindowSeconds := by exact_mod_cast hwindow
    exact lt_of_lt_of_le one_pos this
  have hlockout' : (1 : Rat) ≤ config.lockoutSeconds := by exact_mod_cast hlockout
  -- the failures after this one
  have hall : (τ.fail config.policy now).failures = (τ.at now).failures ++ [now] := rfl
  have hrecent : config.policy.recent (τ.fail config.policy now).failures now =
      state.failures ++ [now] := by
    rw [hall, recent_snoc hwindow', hfailures]
    rfl
  have hsorted' : (τ.fail config.policy now).failures.Pairwise (· ≤ ·) := by
    refine List.pairwise_append.mpr
      ⟨Tally.at_sorted hsorted, List.pairwise_singleton _ _, fun x hx y hy => ?_⟩
    rw [List.mem_singleton.mp hy]
    exact hpast x (Tally.at_failures hx)
  have hpast' : ∀ x ∈ (τ.fail config.policy now).failures, x ≤ now := by
    intro x hx
    rcases List.mem_append.mp hx with hx | hx
    · exact hpast x (Tally.at_failures hx)
    · exact le_of_eq (List.mem_singleton.mp hx)
  intro t ht
  have hleft : (state.failures ++ [now]).dropWhile (· ≤ t - config.failureWindowSeconds) =
      config.policy.recent (τ.fail config.policy now).failures t := by
    rw [← hrecent, ← hwin]
    exact recent_dropWhile hsorted' hpast' ht
  rcases τ.fail_cases config.policy now with ⟨hmany, hlocked⟩ | ⟨hfew, hopen⟩
  · -- the failure locks
    have hadd : addFailure config state now =
        { state with failures := state.failures ++ [now]
                     lockedUntil := now + config.lockoutSeconds } := by
      unfold addFailure
      rw [hrecent] at hmany
      exact if_neg (by omega)
    have hpos : now + config.lockoutSeconds ≠ 0 := by linarith
    rw [hadd]
    by_cases hover : now + config.lockoutSeconds ≤ t
    · have hfresh : (τ.fail config.policy now).at t = .fresh := by
        unfold Tally.at
        rw [hlocked]
        exact if_pos hover
      simp [seen, expireState, hpos, hover, Tally.recent, hfresh, Policy.recent, Tally.fresh]
    · have hself : (τ.fail config.policy now).at t = τ.fail config.policy now := by
        unfold Tally.at
        rw [hlocked]
        exact if_neg hover
      simp only [seen, expireState, hover, and_false, if_false, Tally.recent, hself, hlocked,
        hleft, Option.getD_some]
      rfl
  · -- it does not
    have hadd : addFailure config state now =
        { state with failures := state.failures ++ [now] } := by
      unfold addFailure
      rw [hrecent] at hfew
      exact if_pos (by omega)
    have hself : (τ.fail config.policy now).at t = τ.fail config.policy now := by
      unfold Tally.at
      rw [hopen, hunlocked]
    rw [hadd]
    simp [seen, expireState, hlock, Tally.recent, hself, hopen, hunlocked, hleft]

/-- A request that is let in is not locked out. -/
theorem Agrees.unlocked (h : Agrees config (some (o, state)) τ now)
    (hzero : retryAfterOf (expireState config state now) now = 0) :
    (τ.at now).lockedUntil = none := by
  have hlock := congrArg Prod.snd (h now (le_refl now))
  dsimp only [seen] at hlock
  have hle : (expireState config state now).lockedUntil ≤ now := by
    unfold retryAfterOf at hzero
    by_contra hlt
    rw [if_neg hlt, Int.ceil_eq_iff] at hzero
    have := hzero.2
    push_cast at this
    linarith [not_le.mp hlt]
  rw [hlock] at hle
  rcases τ.at_cases now with ⟨hfresh, -⟩ | ⟨hself, hfuture⟩
  · rw [hfresh]
    rfl
  · rw [hself] at hle ⊢
    cases hu : τ.lockedUntil with
    | none => rfl
    | some u =>
        rw [hu] at hle
        exact absurd hle (not_le.mpr (hfuture u hu))

end EarlyWarning
