/-
# `LeaseProtocol` — the lease excludes, over every interleaving

Any number of executors run `rule_execution_lease` against one table: read the clock,
run the upsert, run the body, run the delete.  The upsert and the delete are atomic;
everything else interleaves, a clock reading may be stale by any amount when its
statement runs, and an executor may stall in its body for as long as it likes.

The invariant `LeaseInv` carries the argument.  Its field `held` says that an executor
in its body whose own `expires_at` has not passed still owns the row of its rule — a
take-over needs `expires_at <= acquired_at`, and no `acquired_at` is later than the
clock.  The table has one row per rule, so two such executors of one rule own the same
row, hence the same token.

Failures are part of the system: the statement of an acquire and that of a release may
raise, and in both cases the write may or may not have reached the database.
-/
import EarlyWarning.ExecutionLock
import EarlyWarning.Lib.Run
import Mathlib.Algebra.Order.Ring.Int
import Mathlib.Logic.Function.Basic
import Mathlib.Tactic.Linarith

namespace EarlyWarning.LeaseProtocol

open Lib

/-- One call of `rule_execution_lease`. -/
structure Executor where
  ruleId : Nat
  ownerToken : String
  leaseSeconds : Int
  positive : 1 ≤ leaseSeconds

inductive Phase
  | start
  /-- `now_fn()` has been read; the row is ready to be written -/
  | stamped (row : RuleExecutionLease)
  /-- inside the `with` body -/
  | body (expiresAt : DateTime)
  /-- `RuleExecutionInProgressError` was raised -/
  | rejected
  /-- the acquire raised something else -/
  | failed
  | released
  /-- the release raised -/
  | releaseFailed
deriving DecidableEq

structure State (ι : Type) where
  clock : DateTime
  leases : LeaseTable
  phase : ι → Phase

inductive Label (ι : Type)
  /-- time passes -/
  | tick (us : Nat)
  /-- `now_fn()` answers `now`, the present or any moment before it -/
  | readNow (i : ι) (now : DateTime)
  | acquire (i : ι)
  /-- the acquire raises; `written` tells whether its row reached the table -/
  | acquireFails (i : ι) (written : Bool)
  | release (i : ι)
  /-- the release raises; `written` tells whether its delete reached the table -/
  | releaseFails (i : ι) (written : Bool)

variable {ι : Type} [DecidableEq ι] (ex : ι → Executor)

def State.setPhase (s : State ι) (i : ι) (p : Phase) : State ι :=
  { s with phase := Function.update s.phase i p }

/-- The phase the upsert's `rowcount` sends an executor to. -/
def afterAcquire (row : RuleExecutionLease) (rowcount : Nat) : Phase :=
  if rowcount = 1 then .body row.expiresAt else .rejected

def step (s : State ι) : Label ι → Option (State ι)
  | .tick us => some { s with clock := s.clock + us }
  | .readNow i now =>
      match s.phase i with
      | .start =>
          if now ≤ s.clock then
            match newLease (ex i).ruleId (ex i).ownerToken (ex i).leaseSeconds now with
            | .ok row => some (s.setPhase i (.stamped row))
            | .error _ => some (s.setPhase i .failed)
          else none
      | _ => none
  | .acquire i =>
      match s.phase i with
      | .stamped row =>
          let (leases, rowcount) := acquireStatement s.leases row
          some { s.setPhase i (afterAcquire row rowcount) with leases }
      | _ => none
  | .acquireFails i written =>
      match s.phase i with
      | .stamped row =>
          let leases := if written then (acquireStatement s.leases row).1 else s.leases
          some { s.setPhase i .failed with leases }
      | _ => none
  | .release i =>
      match s.phase i with
      | .body _ =>
          let leases := releaseStatement s.leases (ex i).ruleId (ex i).ownerToken
          some { s.setPhase i .released with leases }
      | _ => none
  | .releaseFails i written =>
      match s.phase i with
      | .body _ =>
          let leases := if written then
            releaseStatement s.leases (ex i).ruleId (ex i).ownerToken else s.leases
          some { s.setPhase i .releaseFailed with leases }
      | _ => none

/-- No executor has started, and the rows in the table belong to nobody here. -/
structure Initial (s : State ι) : Prop where
  primaryKey : PrimaryKey s.leases
  foreign : ∀ r ∈ s.leases, ∀ i, r.ownerToken ≠ (ex i).ownerToken
  start : ∀ i, s.phase i = .start

/-- The executor of a phase may still have a row in the table. -/
def Phase.mayOwn (p : Phase) (r : RuleExecutionLease) : Prop :=
  p = .body r.expiresAt ∨ p = .failed ∨ p = .releaseFailed

structure LeaseInv (s : State ι) : Prop where
  primaryKey : PrimaryKey s.leases
  own : ∀ r ∈ s.leases, ∀ i, r.ownerToken = (ex i).ownerToken →
    r.ruleId = (ex i).ruleId ∧ (s.phase i).mayOwn r
  stamped : ∀ i row, s.phase i = .stamped row →
    row.ruleId = (ex i).ruleId ∧ row.ownerToken = (ex i).ownerToken ∧ row.acquiredAt ≤ s.clock
  held : ∀ i e, s.phase i = .body e → s.clock < e →
    ∃ r ∈ s.leases, r.ruleId = (ex i).ruleId ∧ r.ownerToken = (ex i).ownerToken ∧
      r.expiresAt = e

omit [DecidableEq ι] in
theorem Initial.leaseInv {s : State ι} (h : Initial ex s) : LeaseInv ex s where
  primaryKey := h.primaryKey
  own := fun r hr i heq => absurd heq (h.foreign r hr i)
  stamped := fun i row hp => by rw [h.start i] at hp; cases hp
  held := fun i e hp _ => by rw [h.start i] at hp; cases hp

/-! ## What a step can do -/

variable {ex}

theorem setPhase_self (s : State ι) (i : ι) (p : Phase) : (s.setPhase i p).phase i = p :=
  Function.update_self ..

theorem setPhase_ne (s : State ι) {i j : ι} (p : Phase) (h : j ≠ i) :
    (s.setPhase i p).phase j = s.phase j :=
  Function.update_of_ne h ..

theorem step_readNow {s t : State ι} {i : ι} {now : DateTime}
    (h : step ex s (.readNow i now) = some t) :
    s.phase i = .start ∧ now ≤ s.clock ∧
      (t = s.setPhase i .failed ∨
        ∃ row, newLease (ex i).ruleId (ex i).ownerToken (ex i).leaseSeconds now = .ok row ∧
          t = s.setPhase i (.stamped row)) := by
  unfold step at h
  cases hp : s.phase i with
  | start =>
      simp only [hp] at h
      split at h
      case isTrue hle =>
        refine ⟨rfl, hle, ?_⟩
        split at h
        case h_1 row hrow => exact .inr ⟨row, hrow, (Option.some.inj h).symm⟩
        case h_2 => exact .inl (Option.some.inj h).symm
      case isFalse => cases h
  | _ => simp [hp] at h

theorem step_acquire {s t : State ι} {i : ι} (h : step ex s (.acquire i) = some t) :
    ∃ row, s.phase i = .stamped row ∧
      t = { s.setPhase i (afterAcquire row (acquireStatement s.leases row).2) with
            leases := (acquireStatement s.leases row).1 } := by
  unfold step at h
  cases hp : s.phase i with
  | stamped row =>
      simp only [hp, Option.some.injEq] at h
      exact ⟨row, rfl, h.symm⟩
  | _ => simp [hp] at h

theorem step_acquireFails {s t : State ι} {i : ι} {written : Bool}
    (h : step ex s (.acquireFails i written) = some t) :
    ∃ row, s.phase i = .stamped row ∧
      t = { s.setPhase i .failed with
            leases := if written then (acquireStatement s.leases row).1 else s.leases } := by
  unfold step at h
  cases hp : s.phase i with
  | stamped row =>
      simp only [hp, Option.some.injEq] at h
      exact ⟨row, rfl, h.symm⟩
  | _ => simp [hp] at h

theorem step_release {s t : State ι} {i : ι} (h : step ex s (.release i) = some t) :
    (∃ e, s.phase i = .body e) ∧
      t = { s.setPhase i .released with
            leases := releaseStatement s.leases (ex i).ruleId (ex i).ownerToken } := by
  unfold step at h
  cases hp : s.phase i with
  | body e =>
      simp only [hp, Option.some.injEq] at h
      exact ⟨⟨e, rfl⟩, h.symm⟩
  | _ => simp [hp] at h

theorem step_releaseFails {s t : State ι} {i : ι} {written : Bool}
    (h : step ex s (.releaseFails i written) = some t) :
    (∃ e, s.phase i = .body e) ∧
      t = { s.setPhase i .releaseFailed with
            leases := if written then
              releaseStatement s.leases (ex i).ruleId (ex i).ownerToken else s.leases } := by
  unfold step at h
  cases hp : s.phase i with
  | body e =>
      simp only [hp, Option.some.injEq] at h
      exact ⟨⟨e, rfl⟩, h.symm⟩
  | _ => simp [hp] at h

/-! ## Every step keeps the invariant -/

section Steps

variable {s : State ι} (hinv : LeaseInv ex s)

include hinv

omit [DecidableEq ι] in
theorem LeaseInv.tick (us : Nat) : LeaseInv ex { s with clock := s.clock + us } where
  primaryKey := hinv.primaryKey
  own := hinv.own
  stamped := fun i row hp => by
    obtain ⟨hr, ht, hle⟩ := hinv.stamped i row hp
    exact ⟨hr, ht, le_trans hle (by simp)⟩
  held := fun i e hp hlt => hinv.held i e hp (lt_of_le_of_lt (by simp) hlt)

/-- An executor that owns no row moves to a phase outside the body. -/
theorem LeaseInv.setPhase {i : ι} {p : Phase}
    (hnone : ∀ r ∈ s.leases, r.ownerToken ≠ (ex i).ownerToken)
    (hstamped : ∀ row, p = .stamped row → row.ruleId = (ex i).ruleId ∧
      row.ownerToken = (ex i).ownerToken ∧ row.acquiredAt ≤ s.clock)
    (hbody : ∀ e, p ≠ .body e) : LeaseInv ex (s.setPhase i p) where
  primaryKey := hinv.primaryKey
  own := fun r hr j heq => by
    have hji : j ≠ i := fun h => hnone r hr (h ▸ heq)
    rw [setPhase_ne s p hji]
    exact hinv.own r hr j heq
  stamped := fun j row hp => by
    by_cases hji : j = i
    · subst hji
      exact hstamped row (setPhase_self s j p ▸ hp)
    · exact hinv.stamped j row (setPhase_ne s p hji ▸ hp)
  held := fun j e hp hlt => by
    by_cases hji : j = i
    · subst hji
      exact absurd (setPhase_self s j p ▸ hp) (hbody e)
    · exact hinv.held j e (setPhase_ne s p hji ▸ hp) hlt

omit [DecidableEq ι] in
/-- No row carries the token of an executor that has not run its upsert. -/
theorem LeaseInv.no_row_before_acquire {i : ι}
    (hp : s.phase i = .start ∨ ∃ row, s.phase i = .stamped row) :
    ∀ r ∈ s.leases, r.ownerToken ≠ (ex i).ownerToken := by
  intro r hr heq
  rcases (hinv.own r hr i heq).2 with h | h | h <;> rcases hp with hp | ⟨row, hp⟩ <;>
    rw [hp] at h <;> cases h

/-- The upsert of `i` ran and `i` moved to `p`: to its body only when a row was written,
and then to the body of that row. -/
theorem LeaseInv.upsert (hinj : ∀ i j, (ex i).ownerToken = (ex j).ownerToken → i = j)
    {i : ι} {row : RuleExecutionLease} {p : Phase} (hp : s.phase i = .stamped row)
    (hown : (acquireStatement s.leases row).2 = 1 → p.mayOwn row)
    (hbody : ∀ e, p = .body e → (acquireStatement s.leases row).2 = 1)
    (hstamped : ∀ row', p ≠ .stamped row') :
    LeaseInv ex { s.setPhase i p with leases := (acquireStatement s.leases row).1 } := by
  obtain ⟨hrule, htok, hle⟩ := hinv.stamped i row hp
  have hnone := hinv.no_row_before_acquire (.inr ⟨row, hp⟩)
  rcases acquireStatement_cases hinv.primaryKey row with ⟨hcount, htable⟩ | ⟨hcount, hmem, hexp⟩
  · have h := hinv.setPhase hnone (p := p) (fun row' h => absurd h (hstamped row'))
      (fun e he => by simp [hbody e he] at hcount)
    rw [htable]
    exact h
  · refine ⟨acquireStatement_primaryKey hinv.primaryKey row, ?_, ?_, ?_⟩
    · intro r hr j heq
      rcases (hmem r).mp hr with rfl | ⟨hr', hne⟩
      · obtain rfl : j = i := hinj j i (heq.symm.trans htok)
        exact ⟨hrule, by rw [setPhase_self]; exact hown hcount⟩
      · have hji : j ≠ i := fun h => hnone r hr' (h ▸ heq)
        rw [setPhase_ne s p hji]
        exact hinv.own r hr' j heq
    · intro j row' hp'
      by_cases hji : j = i
      · subst hji
        exact absurd (setPhase_self s j p ▸ hp') (hstamped row')
      · exact hinv.stamped j row' (setPhase_ne s p hji ▸ hp')
    · intro j e hp' hlt
      by_cases hji : j = i
      · subst hji
        have hpe : p = .body e := setPhase_self s j p ▸ hp'
        have hown' := hown hcount
        simp only [hpe, Phase.mayOwn, Phase.body.injEq, reduceCtorEq, or_false] at hown'
        exact ⟨row, (hmem row).mpr (.inl rfl), hrule, htok, hown'.symm⟩
      · obtain ⟨r, hr, hrj, htj, hej⟩ := hinv.held j e (setPhase_ne s p hji ▸ hp') hlt
        refine ⟨r, (hmem r).mpr (.inr ⟨hr, fun heq => ?_⟩), hrj, htj, hej⟩
        -- a row of the same rule was expired at a moment that is not later than the clock
        have hexpired := hexp r hr heq
        rw [hej] at hexpired
        exact absurd (hlt.trans_le (hexpired.trans hle)) (lt_irrefl _)

/-- An executor leaves its body; of the rows only its own may go. -/
theorem LeaseInv.leave {i : ι} {e : DateTime} {p : Phase} {leases : LeaseTable}
    (hp : s.phase i = .body e)
    (hpk : PrimaryKey leases) (hsub : ∀ r ∈ leases, r ∈ s.leases)
    (hkeep : ∀ r ∈ s.leases, r.ownerToken ≠ (ex i).ownerToken → r ∈ leases)
    (hend : p = .releaseFailed ∨
      (p = .released ∧ ∀ r ∈ leases, r.ownerToken ≠ (ex i).ownerToken))
    (hinj : ∀ i j, (ex i).ownerToken = (ex j).ownerToken → i = j) :
    LeaseInv ex { s.setPhase i p with leases } := by
  have hout : ∀ q, (q = Phase.releaseFailed ∨ q = .released) → (∀ e, q ≠ .body e) ∧
      (∀ row, q ≠ .stamped row) := by
    rintro q (rfl | rfl) <;> simp
  have hq := hout p (hend.imp_right And.left)
  refine ⟨hpk, ?_, ?_, ?_⟩
  · intro r hr j heq
    by_cases hji : j = i
    · subst hji
      rcases hend with rfl | ⟨-, hnone⟩
      · exact ⟨(hinv.own r (hsub r hr) j heq).1, by rw [setPhase_self]; exact .inr (.inr rfl)⟩
      · exact absurd heq (hnone r hr)
    · rw [setPhase_ne s p hji]
      exact hinv.own r (hsub r hr) j heq
  · intro j row hp'
    by_cases hji : j = i
    · subst hji
      exact absurd (setPhase_self s j p ▸ hp') (hq.2 row)
    · exact hinv.stamped j row (setPhase_ne s p hji ▸ hp')
  · intro j e' hp' hlt
    by_cases hji : j = i
    · subst hji
      exact absurd (setPhase_self s j p ▸ hp') (hq.1 e')
    · obtain ⟨r, hr, hrj, htj, hej⟩ := hinv.held j e' (setPhase_ne s p hji ▸ hp') hlt
      exact ⟨r, hkeep r hr fun h => hji (hinj j i (htj.symm.trans h)), hrj, htj, hej⟩

end Steps

omit [DecidableEq ι] in
/-- A release deletes the rows with its own token, and no others. -/
theorem mem_release {s : State ι} (hinv : LeaseInv ex s) {i : ι} {r : RuleExecutionLease} :
    r ∈ releaseStatement s.leases (ex i).ruleId (ex i).ownerToken ↔
      r ∈ s.leases ∧ r.ownerToken ≠ (ex i).ownerToken := by
  rw [mem_releaseStatement]
  exact and_congr_right fun hr =>
    ⟨fun h heq => h ⟨(hinv.own r hr i heq).1, heq⟩, fun h hc => h hc.2⟩

theorem leaseInv_step (hinj : ∀ i j, (ex i).ownerToken = (ex j).ownerToken → i = j)
    (s : State ι) (a : Label ι) (t : State ι) (hinv : LeaseInv ex s)
    (h : step ex s a = some t) : LeaseInv ex t := by
  cases a with
  | tick us =>
      obtain rfl : _ = t := Option.some.inj h
      exact hinv.tick us
  | readNow i now =>
      obtain ⟨hp, hle, rfl | ⟨row, hrow, rfl⟩⟩ := step_readNow h
      · exact hinv.setPhase (hinv.no_row_before_acquire (.inl hp)) (by simp) (by simp)
      · obtain ⟨hr, ht, ha⟩ := newLease_ok hrow
        refine hinv.setPhase (hinv.no_row_before_acquire (.inl hp)) ?_ (by simp)
        rintro row' heq
        cases heq
        exact ⟨hr, ht, ha ▸ hle⟩
  | acquire i =>
      obtain ⟨row, hp, rfl⟩ := step_acquire h
      refine hinv.upsert hinj hp (fun hc => ?_) (fun e he => ?_) (fun row' he => ?_)
      · exact .inl (by simp [afterAcquire, hc])
      · by_contra hc
        simp [afterAcquire, hc] at he
      · unfold afterAcquire at he
        split at he <;> cases he
  | acquireFails i written =>
      obtain ⟨row, hp, rfl⟩ := step_acquireFails h
      cases written with
      | true => exact hinv.upsert hinj hp (fun _ => .inr (.inl rfl)) (by simp) (by simp)
      | false =>
          exact hinv.setPhase (hinv.no_row_before_acquire (.inr ⟨row, hp⟩)) (by simp) (by simp)
  | release i =>
      obtain ⟨⟨e, hp⟩, rfl⟩ := step_release h
      exact hinv.leave hp (releaseStatement_primaryKey hinv.primaryKey _ _)
        (fun r hr => ((mem_release hinv).mp hr).1)
        (fun r hr hne => (mem_release hinv).mpr ⟨hr, hne⟩)
        (.inr ⟨rfl, fun r hr => ((mem_release hinv).mp hr).2⟩) hinj
  | releaseFails i written =>
      obtain ⟨⟨e, hp⟩, rfl⟩ := step_releaseFails h
      cases written with
      | true =>
          exact hinv.leave hp (releaseStatement_primaryKey hinv.primaryKey _ _)
            (fun r hr => ((mem_release hinv).mp hr).1)
            (fun r hr hne => (mem_release hinv).mpr ⟨hr, hne⟩) (.inl rfl) hinj
      | false =>
          exact hinv.leave hp hinv.primaryKey (fun _ hr => hr) (fun _ hr _ => hr) (.inl rfl) hinj

/-! ## A call that has ended stays ended -/

/-- The call has returned or raised, and will not run its body again. -/
def Phase.ended : Phase → Bool
  | .rejected | .failed | .released | .releaseFailed => true
  | _ => false

/-- A step of `i` starts in a phase that has not ended; every other phase is kept. -/
theorem step_ended {s t : State ι} {a : Label ι} {i : ι} (h : step ex s a = some t)
    (hend : (s.phase i).ended = true) : t.phase i = s.phase i := by
  have keep : ∀ {j : ι} {p q : Phase}, s.phase j = q → q.ended = false →
      (s.setPhase j p).phase i = s.phase i := fun {j p q} hq hne =>
    setPhase_ne s p fun hij => by
      subst hij
      rw [hq, hne] at hend
      cases hend
  cases a with
  | tick us =>
      cases h
      rfl
  | readNow j now =>
      obtain ⟨hp, -, rfl | ⟨row, -, rfl⟩⟩ := step_readNow h
      · exact keep hp rfl
      · exact keep hp rfl
  | acquire j =>
      obtain ⟨row, hp, rfl⟩ := step_acquire h
      exact keep hp rfl
  | acquireFails j written =>
      obtain ⟨row, hp, rfl⟩ := step_acquireFails h
      exact keep hp rfl
  | release j =>
      obtain ⟨⟨e, hp⟩, rfl⟩ := step_release h
      exact keep hp rfl
  | releaseFails j written =>
      obtain ⟨⟨e, hp⟩, rfl⟩ := step_releaseFails h
      exact keep hp rfl

theorem fire_ended {as : List (Label ι)} {s t : State ι} {i : ι}
    (hend : (s.phase i).ended = true) (h : fire (step ex) s as = some t) :
    t.phase i = s.phase i := by
  refine fire_invariant (I := fun u => u.phase i = s.phase i) (fun u a v hu hv => ?_) rfl h
  rw [step_ended hv (hu ▸ hend), hu]

/-! ## Mutual exclusion -/

/-- What a reachable state guarantees, about itself, its steps and what follows them. -/
structure LeaseSafe (ex : ι → Executor) (t : State ι) : Prop where
  /-- of the executors of a rule, one at most is in its body with `expires_at` ahead -/
  exclusive : ∀ i j ei ej, (ex i).ruleId = (ex j).ruleId →
    t.phase i = .body ei → t.clock < ei → t.phase j = .body ej → t.clock < ej → i = j
  /-- a rejected acquire writes nothing, and its body never runs -/
  rejected : ∀ i u, step ex t (.acquire i) = some u → u.phase i = .rejected →
    u.leases = t.leases ∧
      ∀ bs v, fire (step ex) u bs = some v → ∀ e, v.phase i ≠ .body e
  /-- a release takes rows with its own token only … -/
  releaseOwn : ∀ i u, step ex t (.release i) = some u →
    (∀ r ∈ u.leases, r ∈ t.leases) ∧
      ∀ r ∈ t.leases, r.ownerToken ≠ (ex i).ownerToken → r ∈ u.leases
  /-- … and from then on no row carries it -/
  releaseFinal : ∀ i u, step ex t (.release i) = some u →
    ∀ bs v, fire (step ex) u bs = some v → ∀ r ∈ v.leases, r.ownerToken ≠ (ex i).ownerToken

omit [DecidableEq ι] in
theorem LeaseInv.exclusive (hinj : ∀ i j, (ex i).ownerToken = (ex j).ownerToken → i = j)
    {t : State ι} (hinv : LeaseInv ex t) {i j : ι} {ei ej : DateTime}
    (hrule : (ex i).ruleId = (ex j).ruleId) (hi : t.phase i = .body ei) (hei : t.clock < ei)
    (hj : t.phase j = .body ej) (hej : t.clock < ej) : i = j := by
  obtain ⟨r, hr, hri, hti, -⟩ := hinv.held i ei hi hei
  obtain ⟨q, hq, hqj, htj, -⟩ := hinv.held j ej hj hej
  have hrq : r = q := hinv.primaryKey.unique hr hq (by rw [hri, hqj, hrule])
  exact hinj i j (by rw [← hti, ← htj, hrq])

/-- **Mutual exclusion of the execution lease**, for every number of executors and
every interleaving. -/
theorem lease_mutual_exclusion (ex : ι → Executor)
    (hinj : ∀ i j, (ex i).ownerToken = (ex j).ownerToken → i = j)
    {s₀ : State ι} (h₀ : Initial ex s₀) {as : List (Label ι)} {t : State ι}
    (hrun : fire (step ex) s₀ as = some t) : LeaseSafe ex t := by
  have hinv : LeaseInv ex t := fire_invariant (leaseInv_step hinj) h₀.leaseInv hrun
  refine ⟨fun i j ei ej => hinv.exclusive hinj, ?_, ?_, ?_⟩
  · intro i u hu hrej
    constructor
    · obtain ⟨row, -, rfl⟩ := step_acquire hu
      rw [setPhase_self, afterAcquire] at hrej
      rcases acquireStatement_cases hinv.primaryKey row with ⟨-, htable⟩ | ⟨hcount, -⟩
      · exact htable
      · rw [if_pos hcount] at hrej
        cases hrej
    · intro bs v hv e
      rw [fire_ended (by rw [hrej]; rfl) hv, hrej]
      simp
  · intro i u hu
    obtain ⟨-, rfl⟩ := step_release hu
    exact ⟨fun r hr => ((mem_release hinv).mp hr).1,
      fun r hr hne => (mem_release hinv).mpr ⟨hr, hne⟩⟩
  · intro i u hu bs v hv r hr heq
    have hinv' := fire_invariant (leaseInv_step hinj) (leaseInv_step hinj t _ u hinv hu) hv
    obtain ⟨-, rfl⟩ := step_release hu
    have hphase := fire_ended (i := i) (by rw [setPhase_self]; rfl) hv
    rw [setPhase_self] at hphase
    have := (hinv'.own r hr i heq).2
    simp [hphase, Phase.mayOwn] at this

/-! A take-over: the first executor stalls past its lease, the second one reads the
clock and takes the row over, and the late release of the first leaves it alone. -/

def pair : Bool → Executor
  | false => ⟨7, "first", 10, by decide⟩
  | true => ⟨7, "second", 10, by decide⟩

def pairStart : State Bool := ⟨0, [], fun _ => .start⟩

theorem pairStart_initial : Initial pair pairStart :=
  ⟨List.nodup_nil, fun _ hr => absurd hr List.not_mem_nil, fun _ => rfl⟩

def takeOver : List (Label Bool) :=
  [.readNow false 0, .acquire false, .tick 11000000, .readNow true 11000000,
    .acquire true, .release false]

theorem lease_mutual_exclusion_takeOver :
    ∃ t, fire (step pair) pairStart takeOver = some t ∧
      t.phase true = .body 21000000 ∧ LeaseSafe pair t := by
  have hrun : fire (step pair) pairStart takeOver = some _ := rfl
  exact ⟨_, hrun, rfl, lease_mutual_exclusion pair (by decide) pairStart_initial hrun⟩

end EarlyWarning.LeaseProtocol
