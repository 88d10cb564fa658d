/-
# `Lib.Lockout` — failures in a sliding window, and a lock

A guard counts the failures of a client: `limit` of them within `window` lock the client out
for `lockout`, and a lock that has run out, like a success, forgets the failures before it.
`Tally` is what there is to know of a client after a log of starts, failures and resets;
nothing is trimmed from it, so it says what the policy means and not how it is computed.

`Guarded` describes the logs of a guard that lets a client start only while it is not locked,
and one attempt at a time.  Its two theorems are what such a guard is for: no start comes
after as many failures in the window as the limit (`Guarded.start_count`), and none while a
lock lasts (`Guarded.lockout`).
-/
import EarlyWarning.Lib.Log
import Mathlib.Algebra.Order.Group.Defs
import Mathlib.Algebra.Order.Group.Basic

namespace Lib.Lockout

/-- `limit` failures within `window` lock for `lockout`. -/
structure Policy (α : Type*) where
  limit : Nat
  window : α
  lockout : α

/-- The failures since the last reset, oldest first, and the end of the lock, if there is
one. -/
structure Tally (α : Type*) where
  failures : List α
  lockedUntil : Option α

/-- What a guard sees of one client. -/
inductive Entry (α : Type*)
  | start (t : α)
  | failure (t : α)
  | reset
deriving DecidableEq

/-! ## The tally of a client -/

section

variable {α : Type*} [LinearOrder α]

def Tally.fresh : Tally α := { failures := [], lockedUntil := none }

/-- The tally at the time `t`: a lock that has run out resets it. -/
def Tally.at (τ : Tally α) (t : α) : Tally α :=
  match τ.lockedUntil with
  | none => τ
  | some u => if u ≤ t then .fresh else τ

variable {τ : Tally α} {s t : α}

@[simp] theorem Tally.at_fresh : (Tally.fresh : Tally α).at t = .fresh := rfl

theorem Tally.at_cases (τ : Tally α) (t : α) :
    (τ.at t = .fresh ∧ ∃ u, τ.lockedUntil = some u ∧ u ≤ t) ∨
    (τ.at t = τ ∧ ∀ u, τ.lockedUntil = some u → t < u) := by
  unfold Tally.at
  cases hu : τ.lockedUntil with
  | none => exact .inr ⟨rfl, fun u h => by cases h⟩
  | some u =>
      by_cases hle : u ≤ t
      · exact .inl ⟨if_pos hle, u, rfl, hle⟩
      · refine .inr ⟨if_neg hle, fun v hv => ?_⟩
        cases hv
        exact not_le.mp hle

/-- An unlocked tally has no lock, or one that has run out. -/
theorem Tally.unlocked_iff :
    (τ.at t).lockedUntil = none ↔ ∀ u, τ.lockedUntil = some u → u ≤ t := by
  unfold Tally.at
  cases hu : τ.lockedUntil with
  | none => simp [hu]
  | some u => by_cases hle : u ≤ t <;> simp [hle, hu, Tally.fresh]

theorem Tally.unlocked_mono (h : (τ.at s).lockedUntil = none) (hle : s ≤ t) :
    (τ.at t).lockedUntil = none :=
  Tally.unlocked_iff.mpr fun u hu => le_trans (Tally.unlocked_iff.mp h u hu) hle

theorem Tally.at_failures {x : α} (h : x ∈ (τ.at t).failures) : x ∈ τ.failures := by
  rcases τ.at_cases t with ⟨hfresh, -⟩ | ⟨hself, -⟩
  · rw [hfresh] at h
    cases h
  · rwa [hself] at h

theorem Tally.at_sorted (h : τ.failures.Pairwise (· ≤ ·)) :
    (τ.at t).failures.Pairwise (· ≤ ·) := by
  rcases τ.at_cases t with ⟨hfresh, -⟩ | ⟨hself, -⟩
  · rw [hfresh]
    exact List.Pairwise.nil
  · rwa [hself]

end

/-! ## What counts -/

section

variable {α : Type*} [AddCommGroup α] [LinearOrder α]

/-- The failures that count at the time `t`. -/
def Policy.recent (P : Policy α) (failures : List α) (t : α) : List α :=
  failures.filter fun x => t - P.window < x ∧ x ≤ t

def Tally.recent (P : Policy α) (τ : Tally α) (t : α) : List α := P.recent (τ.at t).failures t

/-- A failure at the time `t`. -/
def Tally.fail (P : Policy α) (τ : Tally α) (t : α) : Tally α :=
  let failures := (τ.at t).failures ++ [t]
  { failures
    lockedUntil := if P.limit ≤ (P.recent failures t).length then some (t + P.lockout)
      else (τ.at t).lockedUntil }

def Tally.next (P : Policy α) (τ : Tally α) : Entry α → Tally α
  | .start _ => τ
  | .failure t => τ.fail P t
  | .reset => .fresh

def tally (P : Policy α) (log : List (Entry α)) : Tally α := log.foldl (Tally.next P) .fresh

/-- The failures that count at the time `t`, after this log. -/
def count (P : Policy α) (log : List (Entry α)) (t : α) : Nat :=
  ((tally P log).recent P t).length

/-- The log of a guard at the time `t`; `busy` while an attempt is under way. -/
inductive Guarded (P : Policy α) : List (Entry α) → (busy : Bool) → (t : α) → Prop
  | nil (t : α) : Guarded P [] false t
  | pass {log : List (Entry α)} {busy : Bool} {s t : α} (h : Guarded P log busy s)
      (hle : s ≤ t) : Guarded P log busy t
  | start {log : List (Entry α)} {t : α} (h : Guarded P log false t)
      (hunlocked : ((tally P log).at t).lockedUntil = none) :
      Guarded P (log ++ [.start t]) true t
  | failure {log : List (Entry α)} {t : α} (h : Guarded P log true t) :
      Guarded P (log ++ [.failure t]) false t
  | reset {log : List (Entry α)} {t : α} (h : Guarded P log true t) :
      Guarded P (log ++ [.reset]) false t
  | abandon {log : List (Entry α)} {t : α} (h : Guarded P log true t) : Guarded P log false t

variable {P : Policy α} {τ : Tally α} {log : List (Entry α)} {busy : Bool} {s t : α}

@[simp] theorem tally_snoc_start : tally P (log ++ [.start t]) = tally P log := by
  simp [tally, Tally.next]

@[simp] theorem tally_snoc_failure :
    tally P (log ++ [.failure t]) = (tally P log).fail P t := by
  simp [tally, Tally.next]

@[simp] theorem tally_snoc_reset : tally P (log ++ [.reset]) = .fresh := by
  simp [tally, Tally.next]

/-- A failure locks when it is one too many. -/
theorem Tally.fail_cases (P : Policy α) (τ : Tally α) (t : α) :
    (P.limit ≤ (P.recent (τ.fail P t).failures t).length ∧
      (τ.fail P t).lockedUntil = some (t + P.lockout)) ∨
    ((P.recent (τ.fail P t).failures t).length < P.limit ∧
      (τ.fail P t).lockedUntil = (τ.at t).lockedUntil) := by
  by_cases h : P.limit ≤ (P.recent (τ.fail P t).failures t).length
  · exact .inl ⟨h, if_pos h⟩
  · exact .inr ⟨not_le.mp h, if_neg h⟩

theorem Tally.recent_length_le (τ : Tally α) (t : α) :
    (τ.recent P t).length ≤ (P.recent τ.failures t).length := by
  unfold Tally.recent
  rcases τ.at_cases t with ⟨hfresh, -⟩ | ⟨hself, -⟩
  · rw [hfresh]
    exact Nat.zero_le _
  · rw [hself]

/-! ## What a guard is for -/

/-- The failures of a log are in the past. -/
theorem Guarded.past (h : Guarded P log busy t) : ∀ x ∈ (tally P log).failures, x ≤ t := by
  induction h with
  | nil => exact fun x hx => by cases hx
  | pass _ hle ih => exact fun x hx => le_trans (ih x hx) hle
  | start _ _ ih => simpa using ih
  | @failure log t _ ih =>
      intro x hx
      rw [tally_snoc_failure] at hx
      rcases List.mem_append.mp hx with hx | hx
      · exact ih x (Tally.at_failures hx)
      · exact le_of_eq (List.mem_singleton.mp hx)
  | reset => exact fun x hx => by simp [Tally.fresh] at hx
  | abandon _ ih => exact ih

/-- The failures of a log are in the order of time. -/
theorem Guarded.sorted (h : Guarded P log busy t) :
    (tally P log).failures.Pairwise (· ≤ ·) := by
  induction h with
  | nil => exact List.Pairwise.nil
  | pass _ _ ih => exact ih
  | start _ _ ih => rwa [tally_snoc_start]
  | @failure log t h ih =>
      rw [tally_snoc_failure]
      refine List.pairwise_append.mpr ⟨Tally.at_sorted ih, List.pairwise_singleton _ _, ?_⟩
      intro x hx y hy
      rw [List.mem_singleton.mp hy]
      exact h.past x (Tally.at_failures hx)
  | reset =>
      rw [tally_snoc_reset]
      exact List.Pairwise.nil
  | abandon _ ih => exact ih

/-- While an attempt is under way the client is not locked. -/
theorem Guarded.unlocked (h : Guarded P log true t) :
    ((tally P log).at t).lockedUntil = none := by
  generalize hbusy : true = busy at h
  induction h with
  | pass _ hle ih => exact Tally.unlocked_mono (ih hbusy) hle
  | start _ hunlocked => rwa [tally_snoc_start]
  | nil => cases hbusy
  | failure => cases hbusy
  | reset => cases hbusy
  | abandon => cases hbusy

section

variable [IsOrderedAddMonoid α]

/-- What counts later has counted since it happened. -/
theorem Policy.recent_length_le {failures : List α} (hpast : ∀ x ∈ failures, x ≤ s)
    (hle : s ≤ t) : (P.recent failures t).length ≤ (P.recent failures s).length := by
  unfold Policy.recent
  rw [← List.countP_eq_length_filter, ← List.countP_eq_length_filter]
  refine List.countP_mono_left fun x hx hrecent => ?_
  simp only [decide_eq_true_eq] at hrecent ⊢
  exact ⟨lt_of_le_of_lt (sub_le_sub_right hle P.window) hrecent.1, hpast x hx⟩

/-- Without a lock, fewer failures than the limit count. -/
theorem Guarded.quiet (hlimit : 0 < P.limit) (h : Guarded P log busy t) :
    (tally P log).lockedUntil = none →
      ∀ u, t ≤ u → (P.recent (tally P log).failures u).length < P.limit := by
  have hfresh : ∀ u, (P.recent (Tally.fresh : Tally α).failures u).length < P.limit :=
    fun _ => hlimit
  induction h with
  | nil => exact fun _ u _ => hfresh u
  | pass _ hle ih => exact fun hnone u hu => ih hnone u (le_trans hle hu)
  | start _ _ ih => simpa using ih
  | @failure log t h _ =>
      intro hnone u hu
      have hpast := (Guarded.failure h).past
      rw [tally_snoc_failure] at hnone hpast ⊢
      rcases (tally P log).fail_cases P t with ⟨-, hlocked⟩ | ⟨hfew, -⟩
      · rw [hlocked] at hnone
        cases hnone
      · exact lt_of_le_of_lt (Policy.recent_length_le hpast hu) hfew
  | reset =>
      intro _ u _
      rw [tally_snoc_reset]
      exact hfresh u
  | abandon _ ih => exact ih

/-- An unlocked client has fewer failures that count than the limit. -/
theorem Guarded.unlocked_count (hlimit : 0 < P.limit) (h : Guarded P log busy t)
    (hunlocked : ((tally P log).at t).lockedUntil = none) : count P log t < P.limit := by
  unfold count Tally.recent
  rcases (tally P log).at_cases t with ⟨hfresh, -⟩ | ⟨hself, -⟩
  · rw [hfresh]
    exact hlimit
  · rw [hself] at hunlocked ⊢
    exact h.quiet hlimit hunlocked t (le_refl t)

/-- **No start after too many failures.** -/
theorem Guarded.start_count (hlimit : 0 < P.limit) (h : Guarded P log busy t) :
    ∀ {pre : List (Entry α)} {u : α} {post : List (Entry α)},
      log = pre ++ .start u :: post → count P pre u < P.limit := by
  induction h with
  | nil =>
      intro pre u post hsplit
      cases pre <;> cases hsplit
  | pass _ _ ih => exact ih
  | start h hunlocked ih =>
      intro pre u post hsplit
      rcases snoc_split hsplit with ⟨rfl, heq, -⟩ | ⟨post', -, hsplit⟩
      · cases heq
        exact h.unlocked_count hlimit hunlocked
      · exact ih hsplit
  | failure _ ih =>
      intro pre u post hsplit
      rcases snoc_split hsplit with ⟨-, heq, -⟩ | ⟨post', -, hsplit⟩
      · cases heq
      · exact ih hsplit
  | reset _ ih =>
      intro pre u post hsplit
      rcases snoc_split hsplit with ⟨-, heq, -⟩ | ⟨post', -, hsplit⟩
      · cases heq
      · exact ih hsplit
  | abandon _ ih => exact ih

end

/-- The starts of a log are in the past. -/
theorem Guarded.started (h : Guarded P log busy t) : ∀ u, .start u ∈ log → u ≤ t := by
  induction h with
  | nil => exact fun u hu => by cases hu
  | pass _ hle ih => exact fun u hu => le_trans (ih u hu) hle
  | start _ _ ih =>
      intro u hu
      rcases List.mem_append.mp hu with hu | hu
      · exact ih u hu
      · cases List.mem_singleton.mp hu
        exact le_refl _
  | failure _ ih =>
      intro u hu
      rcases List.mem_append.mp hu with hu | hu
      · exact ih u hu
      · cases List.mem_singleton.mp hu
  | reset _ ih =>
      intro u hu
      rcases List.mem_append.mp hu with hu | hu
      · exact ih u hu
      · cases List.mem_singleton.mp hu
  | abandon _ ih => exact ih

/-- A start before a failure was no later. -/
theorem Guarded.ordered (h : Guarded P log busy t) :
    ∀ {pre : List (Entry α)} {u : α} {mid : List (Entry α)} {f : α} {post : List (Entry α)},
      log = pre ++ .start u :: mid ++ .failure f :: post → u ≤ f := by
  induction h with
  | nil =>
      intro pre u mid f post hsplit
      cases pre <;> cases hsplit
  | pass _ _ ih => exact ih
  | start _ _ ih =>
      intro pre u mid f post hsplit
      rcases snoc_split hsplit with ⟨-, heq, -⟩ | ⟨post', -, hsplit⟩
      · cases heq
      · exact ih hsplit
  | failure h ih =>
      intro pre u mid f post hsplit
      rcases snoc_split hsplit with ⟨hlog, heq, -⟩ | ⟨post', -, hsplit⟩
      · cases heq
        exact h.started u (by rw [← hlog]; simp)
      · exact ih hsplit
  | reset _ ih =>
      intro pre u mid f post hsplit
      rcases snoc_split hsplit with ⟨-, heq, -⟩ | ⟨post', -, hsplit⟩
      · cases heq
      · exact ih hsplit
  | abandon _ ih => exact ih

/-- Every failure that locked has had its lockout, or the lock still stands. -/
theorem Guarded.served (h : Guarded P log busy t) :
    ∀ {pre : List (Entry α)} {f : α} {post : List (Entry α)},
      log = pre ++ .failure f :: post → P.limit ≤ count P (pre ++ [.failure f]) f →
      f + P.lockout ≤ t ∨ ∃ u, (tally P log).lockedUntil = some u ∧ f + P.lockout ≤ u := by
  -- a lock that is over has been served
  have hover : ∀ {log : List (Entry α)} {t x : α}, ((tally P log).at t).lockedUntil = none →
      x ≤ t ∨ (∃ u, (tally P log).lockedUntil = some u ∧ x ≤ u) → x ≤ t := by
    intro log t x hunlocked hx
    rcases hx with hx | ⟨u, hu, hx⟩
    · exact hx
    · exact le_trans hx (Tally.unlocked_iff.mp hunlocked u hu)
  induction h with
  | nil =>
      intro pre f post hsplit
      cases pre <;> cases hsplit
  | pass _ hle ih =>
      intro pre f post hsplit hcount
      exact (ih hsplit hcount).imp_left fun h => le_trans h hle
  | start _ _ ih =>
      intro pre f post hsplit hcount
      rw [tally_snoc_start]
      rcases snoc_split hsplit with ⟨-, heq, -⟩ | ⟨post', -, hsplit⟩
      · cases heq
      · exact ih hsplit hcount
  | @failure log t h ih =>
      intro pre f post hsplit hcount
      rcases snoc_split hsplit with ⟨rfl, heq, -⟩ | ⟨post', -, hsplit⟩
      · cases heq
        right
        rw [count, tally_snoc_failure] at hcount
        rw [tally_snoc_failure]
        rcases (tally P pre).fail_cases P t with ⟨-, hlocked⟩ | ⟨hfew, -⟩
        · exact ⟨_, hlocked, le_refl _⟩
        · exact absurd (lt_of_le_of_lt (Tally.recent_length_le _ t) hfew) (not_lt.mpr hcount)
      · exact .inl (hover h.unlocked (ih hsplit hcount))
  | reset h ih =>
      intro pre f post hsplit hcount
      rcases snoc_split hsplit with ⟨-, heq, -⟩ | ⟨post', -, hsplit⟩
      · cases heq
      · exact .inl (hover h.unlocked (ih hsplit hcount))
  | abandon _ ih => exact ih

/-- **No start while a lock lasts.** -/
theorem Guarded.lockout (h : Guarded P log busy t) :
    ∀ {pre : List (Entry α)} {f : α} {mid : List (Entry α)} {u : α} {post : List (Entry α)},
      log = pre ++ .failure f :: mid ++ .start u :: post →
      P.limit ≤ count P (pre ++ [.failure f]) f → f + P.lockout ≤ u := by
  induction h with
  | nil =>
      intro pre f mid u post hsplit
      cases pre <;> cases hsplit
  | pass _ _ ih => exact ih
  | start h hunlocked ih =>
      intro pre f mid u post hsplit hcount
      rcases snoc_split hsplit with ⟨hlog, heq, -⟩ | ⟨post', -, hsplit⟩
      · cases heq
        rcases h.served hlog.symm hcount with hserved | ⟨v, hv, hle⟩
        · exact hserved
        · exact le_trans hle (Tally.unlocked_iff.mp hunlocked v hv)
      · exact ih hsplit hcount
  | failure _ ih =>
      intro pre f mid u post hsplit hcount
      rcases snoc_split hsplit with ⟨-, heq, -⟩ | ⟨post', -, hsplit⟩
      · cases heq
      · exact ih hsplit hcount
  | reset _ ih =>
      intro pre f mid u post hsplit hcount
      rcases snoc_split hsplit with ⟨-, heq, -⟩ | ⟨post', -, hsplit⟩
      · cases heq
      · exact ih hsplit hcount
  | abandon _ ih => exact ih

end

end Lib.Lockout
