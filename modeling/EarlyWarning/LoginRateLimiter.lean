/-
# `LoginRateLimiter` — the table of login attempts

`LoginRateLimiter` of `app/web_security.py`.  The table `_states` maps a key to an object,
and what the program relies on is which object: two attempts of a key must meet at the gate
of the same one.  So the table holds references here, and the objects live in a heap.

Each function below is one critical section under `_lock`, or a part of one.  The readings
of the clock, which are taken under the lock too, are arguments.  Times are seconds, as
rational numbers; the rounding of floating point is not modelled.
-/
import EarlyWarning.Models
import Mathlib.Data.Rat.Floor

namespace EarlyWarning

open Lib

/-! ## Settings -/

/-- The arguments of the constructor. -/
structure LimiterSettings where
  maxFailures : Int
  failureWindowSeconds : Int
  lockoutSeconds : Int
  maxStates : Int := 10000
  cleanupIntervalSeconds : Rat := 60
  cleanupBatchSize : Int := 64

/-- Settings that the constructor accepts. -/
structure LimiterConfig extends LimiterSettings where
  maxStates_pos : 1 ≤ maxStates
  cleanupIntervalSeconds_pos : 0 < cleanupIntervalSeconds
  cleanupBatchSize_pos : 1 ≤ cleanupBatchSize

/-- The checks of `__init__`. -/
def LimiterSettings.check (settings : LimiterSettings) : Except PyExc LimiterConfig :=
  if hstates : settings.maxStates < 1 then
    .error (valueError "max_states must be positive")
  else if hinterval : settings.cleanupIntervalSeconds ≤ 0 then
    .error (valueError "cleanup_interval_seconds must be positive")
  else if hbatch : settings.cleanupBatchSize < 1 then
    .error (valueError "cleanup_batch_size must be positive")
  else
    .ok { settings with
          maxStates_pos := not_lt.mp hstates
          cleanupIntervalSeconds_pos := not_le.mp hinterval
          cleanupBatchSize_pos := not_lt.mp hbatch }

/-! ## Objects -/

/-- `_AttemptState` -/
structure AttemptState where
  /-- oldest first -/
  failures : List Rat := []
  /-- `0` when there is no lock -/
  lockedUntil : Rat := 0
  /-- the gate is held -/
  gate : Bool := false
  references : Int := 0
deriving DecidableEq

/-- No references, no failures and no lock. -/
def AttemptState.Inactive (state : AttemptState) : Prop :=
  state.references = 0 ∧ state.failures = [] ∧ state.lockedUntil = 0

instance (state : AttemptState) : Decidable state.Inactive :=
  inferInstanceAs (Decidable (_ ∧ _))

/-- A reference to an object of the heap. -/
abbrev ObjId := Nat

structure Limiter (κ : Type) where
  /-- `_states` -/
  states : OrderedDict κ ObjId
  heap : ObjId → AttemptState
  /-- the reference the next object gets -/
  nextObj : ObjId
  /-- `_next_cleanup_at` -/
  nextCleanupAt : Rat

variable {κ : Type} [DecidableEq κ] (config : LimiterConfig)

omit [DecidableEq κ] in
/-- A new limiter, when the clock reads `now`. -/
def Limiter.new (now : Rat) : Limiter κ where
  states := .empty
  heap := fun _ => {}
  nextObj := 0
  nextCleanupAt := now + config.cleanupIntervalSeconds

/-- The object is changed in place. -/
def Limiter.modify (L : Limiter κ) (state : ObjId) (f : AttemptState → AttemptState) :
    Limiter κ :=
  { L with heap := fun o => if o = state then f (L.heap o) else L.heap o }

/-! ## The parts -/

/-- `_expire_state` -/
def expireState (state : AttemptState) (now : Rat) : AttemptState :=
  let cutoff := now - config.failureWindowSeconds
  let state := if state.lockedUntil ≠ 0 ∧ state.lockedUntil ≤ now then
    { state with lockedUntil := 0, failures := [] } else state
  { state with failures := state.failures.dropWhile (· ≤ cutoff) }

/-- `_retry_after` -/
def retryAfterOf (state : AttemptState) (now : Rat) : Int :=
  if state.lockedUntil ≤ now then 0 else ⌈state.lockedUntil - now⌉

/-- `_capacity_retry_after` -/
def capacityRetryAfter : Int := max 1 ⌈config.cleanupIntervalSeconds⌉

/-- `_discard_if_inactive` -/
def discardIfInactive (L : Limiter κ) (key : κ) (state : ObjId) : Limiter κ :=
  if L.states.get? key = some state ∧ (L.heap state).Inactive then
    { L with states := L.states.erase key }
  else L

/-- `_current_state` -/
def currentState (L : Limiter κ) (key : κ) (now : Rat) : Option ObjId × Limiter κ :=
  match L.states.get? key with
  | none => (none, L)
  | some state =>
      let L := discardIfInactive (L.modify state fun s => expireState config s now) key state
      (L.states.get? key, L)

/-- `_reserve_state` -/
def reserveState (L : Limiter κ) (key : κ) : Option ObjId × Limiter κ :=
  if config.maxStates ≤ L.states.size then (none, L)
  else
    let state := L.nextObj
    (some state,
      { L.modify state fun _ => {} with
        states := L.states.set key state
        nextObj := state + 1 })

/-- One turn of the loop of `_run_scheduled_cleanup`. -/
def cleanupOldest (now : Rat) (L : Limiter κ) : Limiter κ :=
  match L.states.popFirst with
  | none => L
  | some ((key, state), rest) =>
      let L := { L with states := rest }.modify state fun s => expireState config s now
      if (L.heap state).Inactive then L else { L with states := L.states.set key state }

/-- `_run_scheduled_cleanup` -/
def runScheduledCleanup (L : Limiter κ) (now : Rat) : Limiter κ :=
  if now < L.nextCleanupAt then L
  else
    (cleanupOldest config now)^[min config.cleanupBatchSize.toNat L.states.size]
      { L with nextCleanupAt := now + config.cleanupIntervalSeconds }

/-- The object for a key, made when there is none and the table has room for it. -/
def obtainState (L : Limiter κ) (key : κ) (now : Rat) : Option ObjId × Limiter κ :=
  match currentState config L key now with
  | (some state, L) => (some state, L)
  | (none, L) => reserveState config L key

/-! ## The critical sections -/

/-- What `attempt` does before it waits at the gate. -/
def attemptEnter (L : Limiter κ) (key : κ) (now : Rat) : Option ObjId × Limiter κ :=
  match obtainState config (runScheduledCleanup config L now) key now with
  | (some state, L) =>
      (some state, L.modify state fun s => { s with references := s.references + 1 })
  | (none, L) => (none, L)

/-- What `attempt` does when it has the gate. -/
def attemptCheck (L : Limiter κ) (state : ObjId) (now : Rat) : Int × Limiter κ :=
  let L := L.modify state fun s => expireState config s now
  (retryAfterOf (L.heap state) now, L)

/-- What `attempt` does when it has given the gate back. -/
def attemptLeave (L : Limiter κ) (key : κ) (state : ObjId) : Limiter κ :=
  discardIfInactive (L.modify state fun s => { s with references := s.references - 1 }) key state

/-- `retry_after` -/
def retryAfter (L : Limiter κ) (key : κ) (now : Rat) : Int × Limiter κ :=
  match currentState config (runScheduledCleanup config L now) key now with
  | (some state, L) => (retryAfterOf (L.heap state) now, L)
  | (none, L) => (0, L)

/-- A failure is added to the object, which may lock it. -/
def addFailure (state : AttemptState) (now : Rat) : AttemptState :=
  let failures := state.failures ++ [now]
  if (failures.length : Int) < config.maxFailures then { state with failures }
  else { state with failures, lockedUntil := now + config.lockoutSeconds }

/-- `record_failure` -/
def recordFailure (L : Limiter κ) (key : κ) (now : Rat) : Int × Limiter κ :=
  match obtainState config (runScheduledCleanup config L now) key now with
  | (some state, L) =>
      let locks : Bool := config.maxFailures ≤ ((L.heap state).failures.length : Int) + 1
      (if locks then config.lockoutSeconds else 0,
        L.modify state fun s => addFailure config s now)
  | (none, L) => (capacityRetryAfter config, L)

/-- `clear` -/
def clear (L : Limiter κ) (key : κ) : Limiter κ :=
  match L.states.get? key with
  | none => L
  | some state =>
      discardIfInactive (L.modify state fun s => { s with failures := [], lockedUntil := 0 })
        key state

end EarlyWarning
