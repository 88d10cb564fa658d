/-
# `LoginProtocol` — the bound on failed logins

Any number of requests to `/login` share one limiter.  Each one makes an attempt, verifies
the password in its body when it was let in, and records the failure or clears the key; it
may also leave its body at any moment, which is what an exception does there.  The log keeps,
in order, when each verification started and how it ended.

The limiter serves keys with a digest in them and the bound is about accounts, so the two are
related by the assumption that no two user names at hand have one digest.
-/
import EarlyWarning.LimiterProtocol
import EarlyWarning.LoginTally
import EarlyWarning.Lib.PyStr

namespace EarlyWarning.LoginProtocol

open Lib Lib.Lockout
open LimiterProtocol (Phase LimiterInv TableInv)

/-! ## Requests -/

structure LoginRequest where
  clientId : String
  username : String

section

variable {δ : Type} (casefold : String → String) (sha256 : String → δ)

def LoginRequest.normalizedUsername (request : LoginRequest) : String :=
  casefold (PyStr.strip request.username)

/-- Who is logging in. -/
def LoginRequest.account (request : LoginRequest) : String × String :=
  (request.clientId, request.normalizedUsername casefold)

/-- `_key` -/
def LoginRequest.key (request : LoginRequest) : String × δ :=
  (request.clientId, sha256 (request.normalizedUsername casefold))

end

/-! ## The system -/

/-- How far the body of a request has come. -/
inductive Login
  | fresh
  | verifying
  | settled
deriving DecidableEq

structure State (ι κ : Type) where
  table : LimiterProtocol.State ι κ
  login : ι → Login
  log : List (ι × Entry Rat)

inductive Label (ι : Type)
  /-- time passes -/
  | tick (now : Rat)
  | enter (i : ι) (now : Rat)
  | acquireGate (i : ι)
  | check (i : ι) (now : Rat)
  /-- `verify_password` starts -/
  | verify (i : ι) (now : Rat)
  /-- the password was wrong, and `record_failure` is called -/
  | fail (i : ι) (now : Rat)
  /-- the password was right, and `clear` is called -/
  | succeed (i : ι)
  | releaseGate (i : ι)
  | leave (i : ι)

section

variable {ι κ : Type} [DecidableEq ι] [DecidableEq κ] (config : LimiterConfig) (key : ι → κ)

/-- The limiter makes a step. -/
def State.limit (s : State ι κ) (a : LimiterProtocol.Label ι κ) : Option (State ι κ) :=
  (LimiterProtocol.step config key s.table a).map fun table => { s with table }

omit [DecidableEq κ] in
/-- The body of request `i` gets to `login`. -/
def State.reach (s : State ι κ) (i : ι) (login : Login) : State ι κ :=
  { s with login := Function.update s.login i login }

omit [DecidableEq ι] [DecidableEq κ] in
def State.note (s : State ι κ) (i : ι) (entry : Entry Rat) : State ι κ :=
  { s with log := s.log ++ [(i, entry)] }

def step (s : State ι κ) : Label ι → Option (State ι κ)
  | .tick now => s.limit config key (.tick now)
  | .enter i now => s.limit config key (.enter i now)
  | .acquireGate i => s.limit config key (.acquireGate i)
  | .check i now => s.limit config key (.check i now)
  | .verify i now =>
      match s.table.phase i, s.login i with
      | .inBody _ 0, .fresh => (s.limit config key (.tick now)).map fun s =>
          (s.reach i .verifying).note i (.start now)
      | _, _ => none
  | .fail i now =>
      match s.login i with
      | .verifying => (s.limit config key (.recordFailure (key i) now)).map fun s =>
          (s.reach i .settled).note i (.failure now)
      | _ => none
  | .succeed i =>
      match s.login i with
      | .verifying => (s.limit config key (.clear (key i))).map fun s =>
          (s.reach i .settled).note i .reset
      | _ => none
  | .releaseGate i => (s.limit config key (.releaseGate i)).map fun s => s.reach i .settled
  | .leave i => s.limit config key (.leave i)

/-- A new limiter, and no request has come yet. -/
structure Initial (s : State ι κ) : Prop where
  table : LimiterProtocol.Initial config s.table
  fresh : ∀ i, s.login i = .fresh
  log : s.log = []

end

/-- What the log says of one account. -/
def accountLog {ι β : Type} [DecidableEq β] (account : ι → β) (k : β)
    (log : List (ι × Entry Rat)) : List (Entry Rat) :=
  log.filterMap fun e => if account e.1 = k then some e.2 else none

/-! ## The limiter under the log -/

section Limiter

variable {ι κ : Type} [DecidableEq ι] [DecidableEq κ] {config : LimiterConfig} {key : ι → κ}
  {s t : LimiterProtocol.State ι κ} {L L' : Limiter κ} {k : κ} {o : ObjId} {i : ι}
  {state : AttemptState} {entry : Option (ObjId × AttemptState)} {τ : Tally Rat}
  {u now : Rat}

omit [DecidableEq ι] in
theorem agrees_swept (h : Agrees config (L.lookup k) τ u) (hle : u ≤ now)
    (hswept : Swept config now L L') : Agrees config (L'.lookup k) τ now := by
  rcases hswept.lookup k with heq | heq <;> rw [heq]
  · exact h.later hle
  · exact h.settled hle

omit [DecidableEq ι] in
/-- One object is changed in place, and says the same. -/
theorem agrees_modify {f : AttemptState → AttemptState} {k' : κ} (hwf : L.WellFormed config)
    (hk' : L.lookup k' = some (o, state)) (hle : u ≤ now)
    (hsame : Agrees config (some (o, state)) τ u → Agrees config (some (o, f state)) τ now)
    (h : Agrees config (L.lookup k) τ u) : Agrees config ((L.modify o f).lookup k) τ now := by
  by_cases hk : k = k'
  · rw [hk, lookup_modify_self hk']
    rw [hk, hk'] at h
    exact hsame h
  · rw [lookup_modify_ne hwf (get?_of_lookup hk') hk]
    exact h.later hle

omit [DecidableEq ι] in
theorem agrees_obtained {f : AttemptState → AttemptState} {k' : κ}
    (hobtained : Obtained config now k' L o state L') (hle : u ≤ now)
    (hsame : k = k' → Agrees config (some (o, state)) τ now →
      Agrees config (some (o, f state)) τ now)
    (h : Agrees config (L.lookup k) τ u) : Agrees config ((L'.modify o f).lookup k) τ now := by
  by_cases hk : k = k'
  · rw [hk, lookup_modify_self hobtained.here]
    rw [hk] at h
    exact hsame hk (h.obtained hle hobtained)
  · rw [lookup_modify_ne hobtained.wellFormed (get?_of_lookup hobtained.here) hk]
    rcases hobtained.elsewhere k hk with heq | heq <;> rw [heq]
    · exact h.later hle
    · exact h.settled hle

omit [DecidableEq ι] [DecidableEq κ] in
/-- A drop of an inactive state changes nothing that is said. -/
theorem agrees_settled {f : AttemptState → AttemptState}
    (hfailures : ∀ st, (f st).failures = st.failures)
    (hlock : ∀ st, (f st).lockedUntil = st.lockedUntil)
    (h : Agrees config entry τ u) : Agrees config (settled f entry) τ u := by
  intro t ht
  rw [← h t ht]
  cases entry with
  | none => rfl
  | some e =>
      obtain ⟨o, st⟩ := e
      rw [settled_some]
      by_cases hinactive : (f st).Inactive
      · rw [if_pos hinactive]
        obtain ⟨-, hnone, hzero⟩ := hinactive
        rw [hfailures] at hnone
        rw [hlock] at hzero
        simp [seen, expireState, hnone, hzero]
      · rw [if_neg hinactive]
        exact seen_congr (hfailures st) (hlock st)

/-- The key whose failures a label is about. -/
def touched {ι κ : Type} : LimiterProtocol.Label ι κ → Option κ
  | .recordFailure k _ => some k
  | .clear k => some k
  | _ => none

/-- What is said of a key changes only by its own failures and clears. -/
theorem agrees_step {a : LimiterProtocol.Label ι κ} (h : LimiterInv config key s)
    (hstep : LimiterProtocol.step config key s a = some t) (hk : touched a ≠ some k)
    (hagrees : Agrees config (s.limiter.lookup k) τ s.clock) :
    Agrees config (t.limiter.lookup k) τ t.clock := by
  obtain ⟨htable, -⟩ := h
  cases a with
  | tick now =>
      obtain ⟨hle, rfl⟩ := LimiterProtocol.readClock_eq_some.mp hstep
      exact hagrees.later hle
  | enter i now =>
      obtain ⟨-, hle, hor⟩ := LimiterProtocol.step_enter hstep
      rcases attemptEnter_spec htable.wellFormed (key i) now with
        ⟨o, state, L', heq, hobtained⟩ | ⟨heq, -⟩
      · rcases hor with ⟨o', L, henter, rfl⟩ | ⟨L, henter, -⟩ <;> rw [heq] at henter
        · cases henter
          exact agrees_obtained hobtained hle (fun _ h => h.congr rfl rfl) hagrees
        · cases henter
      · rcases hor with ⟨o', L, henter, -⟩ | ⟨L, henter, rfl⟩ <;> rw [heq] at henter
        · cases henter
        · cases henter
          exact agrees_swept hagrees hle (runScheduledCleanup_swept htable.wellFormed now)
  | acquireGate i =>
      obtain ⟨o, hi, -, rfl⟩ := LimiterProtocol.step_acquireGate hstep
      exact agrees_modify htable.wellFormed (htable.lookup_of_object (by rw [hi]; rfl))
        (le_refl _) (fun h => h.congr rfl rfl) hagrees
  | check i now =>
      obtain ⟨o, hi, hle, rfl⟩ := LimiterProtocol.step_check hstep
      exact agrees_modify htable.wellFormed (htable.lookup_of_object (by rw [hi]; rfl)) hle
        (fun h => h.expired hle) hagrees
  | releaseGate i =>
      obtain ⟨o, retryAfter, hi, rfl⟩ := LimiterProtocol.step_releaseGate hstep
      exact agrees_modify htable.wellFormed (htable.lookup_of_object (by rw [hi]; rfl))
        (le_refl _) (fun h => h.congr rfl rfl) hagrees
  | leave i =>
      obtain ⟨o, hi, rfl⟩ := LimiterProtocol.step_leave hstep
      have hsettles := settles_discardIfInactive htable.wellFormed
        (htable.served i o (by rw [hi]; rfl))
        (f := fun st => { st with references := st.references - 1 })
      show Agrees config (Limiter.lookup (discardIfInactive _ _ _) _) _ _
      by_cases hkey : k = key i
      · rw [hkey, hsettles.here]
        exact agrees_settled (fun _ => rfl) (fun _ => rfl) (hkey ▸ hagrees)
      · rw [hsettles.elsewhere k hkey]
        exact hagrees
  | retryAfter k' now =>
      obtain ⟨hle, rfl⟩ := LimiterProtocol.step_retryAfter hstep
      exact agrees_swept hagrees hle (retryAfter_swept htable.wellFormed k' now)
  | recordFailure k' now =>
      obtain ⟨hle, rfl⟩ := LimiterProtocol.step_recordFailure hstep
      rcases recordFailure_spec htable.wellFormed k' now with
        ⟨o, state, L', heq, hobtained⟩ | ⟨heq, -⟩
      · dsimp only
        rw [heq]
        exact agrees_obtained hobtained hle (fun heq _ => absurd (heq ▸ rfl) hk) hagrees
      · dsimp only
        rw [heq]
        exact agrees_swept hagrees hle (runScheduledCleanup_swept htable.wellFormed now)
  | clear k' =>
      cases hstep
      dsimp only
      rw [(clear_settles htable.wellFormed k').elsewhere k fun heq => hk (heq ▸ rfl)]
      exact hagrees

end Limiter

/-! ## The invariant -/

section Invariant

variable {ι κ β : Type} [DecidableEq κ] [DecidableEq β]

/-- The limiter says of every account what its log says, and the logs are guarded. -/
structure LoginInv (config : LimiterConfig) (key : ι → κ) (account : ι → β) (s : State ι κ) :
    Prop where
  limiter : LimiterInv config key s.table
  nonneg : 0 ≤ s.table.clock
  agrees : ∀ i, Agrees config (s.table.limiter.lookup (key i))
    (tally config.policy (accountLog account (account i) s.log)) s.table.clock
  guarded : ∀ k, Guarded config.policy (accountLog account k s.log) false s.table.clock
  verifying : ∀ i, s.login i = .verifying → (∃ o, s.table.phase i = .inBody o 0) ∧
    Guarded config.policy (accountLog account (account i) s.log) true s.table.clock
  admitted : ∀ i o, s.table.phase i = .inBody o 0 → s.login i = .fresh →
    ((tally config.policy (accountLog account (account i) s.log)).at s.table.clock).lockedUntil =
      none

variable {config : LimiterConfig} {key : ι → κ} {account : ι → β} {s t : State ι κ}
  {table : LimiterProtocol.State ι κ} {a : LimiterProtocol.Label ι κ} {i j : ι} {o : ObjId}
  {e : Entry Rat} {k : β} {log : List (ι × Entry Rat)}

omit [DecidableEq κ] in
@[simp] theorem accountLog_self : accountLog account (account i) (log ++ [(i, e)]) =
    accountLog account (account i) log ++ [e] := by
  simp [accountLog]

omit [DecidableEq κ] in
theorem accountLog_ne (h : account i ≠ k) :
    accountLog account k (log ++ [(i, e)]) = accountLog account k log := by
  simp [accountLog, h]

theorem Initial.loginInv (h : Initial config s) (hclock : 0 ≤ s.table.clock) :
    LoginInv config key account s := by
  obtain ⟨htable, hfresh, hlog⟩ := h
  refine ⟨htable.limiterInv, hclock, fun i => ?_, fun k => ?_, fun i hi => ?_, fun i o hi => ?_⟩
  · obtain ⟨now, -, hnew⟩ := htable.limiter
    rw [hlog, hnew]
    exact agrees_none
  · rw [hlog]
    exact .nil _
  · rw [hfresh i] at hi
    cases hi
  · rw [htable.idle i] at hi
    cases hi

/-- Two requests of one account in their bodies are one request. -/
theorem LoginInv.alone (h : LoginInv config key account s)
    (hkey : ∀ i j, account i = account j → key i = key j) (hij : account i = account j)
    (hi : (s.table.phase i).hasGate = true) (hj : (s.table.phase j).hasGate = true) : i = j :=
  h.limiter.table.alone i j (hkey i j hij) hi hj

variable [DecidableEq ι]

omit [DecidableEq κ] in
theorem reach_login_ne {login : Login} (h : j ≠ i) : (s.reach i login).login j = s.login j :=
  Function.update_of_ne h ..

omit [DecidableEq κ] in
/-- A request elsewhere than where `i` has got to is another one. -/
theorem login_of_reach {login login' : Login} (h : (s.reach i login).login j = login')
    (hne : login ≠ login') : j ≠ i ∧ s.login j = login' := by
  by_cases hji : j = i
  · subst hji
    exact absurd ((Function.update_self ..).symm.trans h) hne
  · exact ⟨hji, (reach_login_ne hji).symm.trans h⟩

theorem LoginInv.settle (h : LoginInv config key account s) (i : ι) :
    LoginInv config key account (s.reach i .settled) := by
  obtain ⟨hlimiter, hnonneg, hagrees, hguarded, hverifying, hadmitted⟩ := h
  refine ⟨hlimiter, hnonneg, hagrees, hguarded, fun j hj => ?_, fun j o ho hj => ?_⟩
  · exact hverifying j (login_of_reach hj (by decide)).2
  · exact hadmitted j o ho (login_of_reach hj (by decide)).2

/-- A step of the limiter that is about no failure or clear. -/
theorem LoginInv.limit (h : LoginInv config key account s)
    (hstep : LimiterProtocol.step config key s.table a = some table) (ha : touched a = none)
    (hstay : ∀ i, s.login i = .verifying → table.phase i = s.table.phase i)
    (hbody : ∀ i o, table.phase i = .inBody o 0 → s.login i = .fresh →
      ((tally config.policy (accountLog account (account i) s.log)).at
        table.clock).lockedUntil = none) :
    LoginInv config key account { s with table } := by
  have hclock := LimiterProtocol.step_clock hstep
  refine ⟨LimiterProtocol.step_inv h.limiter hstep, le_trans h.nonneg hclock, fun i => ?_,
    fun k => (h.guarded k).pass hclock, fun i hi => ?_, hbody⟩
  · exact agrees_step h.limiter hstep (by rw [ha]; exact (Option.some_ne_none _).symm)
      (h.agrees i)
  · obtain ⟨⟨o, ho⟩, hguarded⟩ := h.verifying i hi
    exact ⟨⟨o, (hstay i hi).trans ho⟩, hguarded.pass hclock⟩

/-- The same, when no request gets into its body. -/
theorem LoginInv.limit_outside (h : LoginInv config key account s)
    (hstep : LimiterProtocol.step config key s.table a = some table) (ha : touched a = none)
    (hmover : ∀ i, LimiterProtocol.mover a = some i → s.login i ≠ .verifying ∧
      ∀ o, table.phase i ≠ .inBody o 0) :
    LoginInv config key account { s with table } := by
  refine h.limit hstep ha (fun i hi => ?_) fun i o ho hi => ?_
  · exact LimiterProtocol.step_phase hstep fun heq => (hmover i heq).1 hi
  · have hphase := LimiterProtocol.step_phase hstep fun heq => (hmover i heq).2 o ho
    exact Tally.unlocked_mono (h.admitted i o (hphase.symm.trans ho) hi)
      (LimiterProtocol.step_clock hstep)

/-- A verification starts. -/
theorem LoginInv.start (h : LoginInv config key account s)
    (hkey : ∀ i j, account i = account j → key i = key j)
    (hi : s.table.phase i = .inBody o 0) (hfresh : s.login i = .fresh) :
    LoginInv config key account ((s.reach i .verifying).note i (.start s.table.clock)) := by
  have hunlocked := h.admitted i o hi hfresh
  have hgate : (s.table.phase i).hasGate = true := by rw [hi]; rfl
  have hlog : ∀ k, tally config.policy
      (accountLog account k (s.log ++ [(i, .start s.table.clock)])) =
        tally config.policy (accountLog account k s.log) := fun k => by
    by_cases hk : account i = k
    · rw [← hk, accountLog_self, tally_snoc_start]
    · rw [accountLog_ne hk]
  refine ⟨h.limiter, h.nonneg, fun j => ?_, fun k => ?_, fun j hj => ?_, fun j o ho hj => ?_⟩
  · show Agrees config _ (tally _ (accountLog _ _ (s.log ++ _))) _
    rw [hlog]
    exact h.agrees j
  · show Guarded _ (accountLog _ _ (s.log ++ _)) _ _
    by_cases hk : account i = k
    · rw [← hk, accountLog_self]
      exact .abandon (.start (h.guarded (account i)) hunlocked)
    · rw [accountLog_ne hk]
      exact h.guarded k
  · show _ ∧ Guarded _ (accountLog _ _ (s.log ++ _)) _ _
    by_cases hne : j = i
    · rw [hne, accountLog_self]
      exact ⟨⟨o, hi⟩, .start (h.guarded (account i)) hunlocked⟩
    · obtain ⟨hphase, hguarded⟩ := h.verifying j ((reach_login_ne hne).symm.trans hj)
      obtain ⟨o', ho'⟩ := hphase
      rw [accountLog_ne fun heq =>
        hne (h.alone hkey heq.symm (by rw [ho']; rfl) hgate)]
      exact ⟨⟨o', ho'⟩, hguarded⟩
  · show ((tally _ (accountLog _ _ (s.log ++ _))).at _).lockedUntil = none
    rw [hlog]
    exact h.admitted j o ho (login_of_reach hj (by decide)).2

/-- A verification ends: the limiter hears of it, and says of the account what its log says
then. -/
theorem LoginInv.finish (h : LoginInv config key account s)
    (hkey : ∀ i j, account i = account j ↔ key i = key j)
    (hstep : LimiterProtocol.step config key s.table a = some table)
    (ha : touched a = some (key i)) (hmover : LimiterProtocol.mover a = none)
    (hi : s.login i = .verifying)
    (hguarded : Guarded config.policy (accountLog account (account i) s.log ++ [e]) false
      table.clock)
    (hagrees : Agrees config (table.limiter.lookup (key i))
      (tally config.policy (accountLog account (account i) s.log ++ [e])) table.clock) :
    LoginInv config key account ((State.reach { s with table } i .settled).note i e) := by
  have hclock := LimiterProtocol.step_clock hstep
  have hphase : ∀ j, table.phase j = s.table.phase j := fun j =>
    LimiterProtocol.step_phase hstep (by rw [hmover]; exact (Option.some_ne_none _).symm)
  obtain ⟨⟨o, ho⟩, -⟩ := h.verifying i hi
  have hgate : (s.table.phase i).hasGate = true := by rw [ho]; rfl
  -- another request in its body is of another account
  have hother : ∀ j o', j ≠ i → s.table.phase j = .inBody o' 0 → account i ≠ account j :=
    fun j o' hne hj heq => hne (h.alone (fun i j => (hkey i j).mp) heq.symm
      (by rw [hj]; rfl) hgate)
  refine ⟨LimiterProtocol.step_inv h.limiter hstep, le_trans h.nonneg hclock, fun j => ?_,
    fun k => ?_, fun j hj => ?_, fun j o' ho' hj => ?_⟩
  · show Agrees config (table.limiter.lookup _) (tally _ (accountLog _ _ (s.log ++ _))) table.clock
    by_cases hj : account i = account j
    · rw [← hj, ← (hkey i j).mp hj, accountLog_self]
      exact hagrees
    · rw [accountLog_ne hj]
      refine agrees_step h.limiter hstep ?_ (h.agrees j)
      rw [ha]
      exact fun heq => hj ((hkey i j).mpr (Option.some.inj heq))
  · show Guarded _ (accountLog _ _ (s.log ++ _)) _ table.clock
    by_cases hk : account i = k
    · rw [← hk, accountLog_self]
      exact hguarded
    · rw [accountLog_ne hk]
      exact (h.guarded k).pass hclock
  · obtain ⟨hne, hj'⟩ := login_of_reach hj (by decide)
    obtain ⟨⟨o', ho'⟩, hguarded'⟩ := h.verifying j hj'
    refine ⟨⟨o', (hphase j).trans ho'⟩, ?_⟩
    show Guarded _ (accountLog _ _ (s.log ++ _)) _ table.clock
    rw [accountLog_ne (hother j o' hne ho')]
    exact hguarded'.pass hclock
  · obtain ⟨hne, hj'⟩ := login_of_reach hj (by decide)
    have ho'' : s.table.phase j = .inBody o' 0 := (hphase j).symm.trans ho'
    show ((tally _ (accountLog _ _ (s.log ++ _))).at table.clock).lockedUntil = none
    rw [accountLog_ne (hother j o' hne ho'')]
    exact Tally.unlocked_mono (h.admitted j o' ho'' hj') hclock

/-! ## Every step keeps it -/

/-- The settings that the bound is about. -/
structure Bounded (config : LimiterConfig) : Prop where
  maxFailures : 1 ≤ config.maxFailures
  window : 1 ≤ config.failureWindowSeconds
  lockout : 1 ≤ config.lockoutSeconds

omit [DecidableEq β] [DecidableEq ι] in
theorem expireState_obtained {key : κ} {L L' : Limiter κ} {state : AttemptState} {now : Rat}
    (h : Obtained config now key L o state L') : expireState config state now = state := by
  rcases h.origin with heq | ⟨-, -, rfl⟩
  · obtain ⟨old, -, rfl, -⟩ := settled_eq_some.mp heq
    exact expireState_expireState (le_refl now)
  · simp [expireState]

/-- The failure of a verification is recorded, and counts. -/
theorem LoginInv.agrees_failure (hbounded : Bounded config) (h : LoginInv config key account s)
    {now : Rat} (hi : s.login i = .verifying)
    (hstep : LimiterProtocol.step config key s.table (.recordFailure (key i) now) = some table) :
    Agrees config (table.limiter.lookup (key i))
      (tally config.policy (accountLog account (account i) s.log ++ [.failure now])) now := by
  obtain ⟨hle, rfl⟩ := LimiterProtocol.step_recordFailure hstep
  obtain ⟨⟨o₀, ho₀⟩, hguarded⟩ := h.verifying i hi
  have hlater := hguarded.pass hle
  rw [tally_snoc_failure]
  rcases recordFailure_spec h.limiter.table.wellFormed (key i) now with
    ⟨o, state, L', heq, hobtained⟩ | ⟨-, hnone, -⟩
  · dsimp only
    rw [heq, lookup_modify_self hobtained.here]
    exact Agrees.fail ((h.agrees i).obtained hle hobtained) (expireState_obtained hobtained)
      hlater.unlocked hlater.sorted hlater.past hbounded.maxFailures hbounded.window
      hbounded.lockout (le_trans h.nonneg hle)
  · -- the state of a request in its body is there
    have hswept := runScheduledCleanup_swept h.limiter.table.wellFormed now
    have hserved := (h.limiter.table.quiet (hswept.wellFormed h.limiter.table.wellFormed)
      (LimiterProtocol.quiet_of_swept hswept)).served i o₀ (by rw [ho₀]; rfl)
    rw [lookup_eq_none.mp hnone] at hserved
    cases hserved

theorem limit_eq_some {u : State ι κ} :
    s.limit config key a = some u ↔
      ∃ table, LimiterProtocol.step config key s.table a = some table ∧
        { s with table } = u :=
  Option.map_eq_some_iff

theorem step_verify {now : Rat} (h : step config key s (.verify i now) = some t) :
    ∃ o table, s.table.phase i = .inBody o 0 ∧ s.login i = .fresh ∧
      LimiterProtocol.step config key s.table (.tick now) = some table ∧
      t = (State.reach { s with table } i .verifying).note i (.start now) := by
  simp only [step] at h
  split at h
  case h_1 o hi hfresh =>
    obtain ⟨u, hu, rfl⟩ := Option.map_eq_some_iff.mp h
    obtain ⟨table, htable, rfl⟩ := limit_eq_some.mp hu
    exact ⟨o, table, hi, hfresh, htable, rfl⟩
  case h_2 => cases h

theorem step_fail {now : Rat} (h : step config key s (.fail i now) = some t) :
    ∃ table, s.login i = .verifying ∧
      LimiterProtocol.step config key s.table (.recordFailure (key i) now) = some table ∧
      t = (State.reach { s with table } i .settled).note i (.failure now) := by
  simp only [step] at h
  split at h
  case h_1 hi =>
    obtain ⟨u, hu, rfl⟩ := Option.map_eq_some_iff.mp h
    obtain ⟨table, htable, rfl⟩ := limit_eq_some.mp hu
    exact ⟨table, hi, htable, rfl⟩
  case h_2 => cases h

theorem step_succeed (h : step config key s (.succeed i) = some t) :
    ∃ table, s.login i = .verifying ∧
      LimiterProtocol.step config key s.table (.clear (key i)) = some table ∧
      t = (State.reach { s with table } i .settled).note i .reset := by
  simp only [step] at h
  split at h
  case h_1 hi =>
    obtain ⟨u, hu, rfl⟩ := Option.map_eq_some_iff.mp h
    obtain ⟨table, htable, rfl⟩ := limit_eq_some.mp hu
    exact ⟨table, hi, htable, rfl⟩
  case h_2 => cases h

theorem step_inv (hbounded : Bounded config) (hkey : ∀ i j, account i = account j ↔ key i = key j)
    {label : Label ι} (h : LoginInv config key account s)
    (hstep : step config key s label = some t) : LoginInv config key account t := by
  have hkey' : ∀ i j, account i = account j → key i = key j := fun i j => (hkey i j).mp
  have hbody : ∀ i, s.login i = .verifying → (s.table.phase i).hasGate = true := fun i hi => by
    obtain ⟨⟨o, ho⟩, -⟩ := h.verifying i hi
    rw [ho]
    rfl
  cases label with
  | tick now =>
      obtain ⟨table, htable, rfl⟩ := limit_eq_some.mp hstep
      exact h.limit_outside htable rfl fun i hi => by cases hi
  | enter i now =>
      obtain ⟨table, htable, rfl⟩ := limit_eq_some.mp hstep
      obtain ⟨hi, -, hor⟩ := LimiterProtocol.step_enter htable
      refine h.limit_outside htable rfl fun j hj => ?_
      cases hj
      refine ⟨fun hlogin => ?_, fun o ho => ?_⟩
      · have := hbody i hlogin
        rw [hi] at this
        cases this
      · rcases hor with ⟨o', L, -, rfl⟩ | ⟨L, -, rfl⟩ <;>
          cases LimiterProtocol.move_phase_self.symm.trans ho
  | acquireGate i =>
      obtain ⟨table, htable, rfl⟩ := limit_eq_some.mp hstep
      obtain ⟨o, hi, -, rfl⟩ := LimiterProtocol.step_acquireGate htable
      refine h.limit_outside htable rfl fun j hj => ?_
      cases hj
      refine ⟨fun hlogin => ?_, fun o' ho' => ?_⟩
      · have := hbody i hlogin
        rw [hi] at this
        cases this
      · cases LimiterProtocol.move_phase_self.symm.trans ho'
  | check i now =>
      obtain ⟨table, htable, rfl⟩ := limit_eq_some.mp hstep
      obtain ⟨o, hi, hle, rfl⟩ := LimiterProtocol.step_check htable
      refine h.limit htable rfl (fun j hj => ?_) fun j o' ho' hj => ?_
      · refine LimiterProtocol.move_phase_ne ?_
        rintro rfl
        obtain ⟨⟨o', ho'⟩, -⟩ := h.verifying j hj
        rw [hi] at ho'
        cases ho'
      · by_cases hne : j = i
        · subst hne
          have hzero : (attemptCheck config s.table.limiter o now).1 = 0 :=
            (Phase.inBody.inj (LimiterProtocol.move_phase_self.symm.trans ho')).2
          have hagrees := (h.agrees j).later hle
          rw [h.limiter.table.lookup_of_object (by rw [hi]; rfl)] at hagrees
          refine hagrees.unlocked ?_
          simpa [attemptCheck, Limiter.modify] using hzero
        · have hphase := (LimiterProtocol.move_phase_ne hne).symm.trans ho'
          exact Tally.unlocked_mono (h.admitted j o' hphase hj) hle
  | verify i now =>
      obtain ⟨o, table, hi, hfresh, htable, rfl⟩ := step_verify hstep
      have h' := h.limit_outside htable rfl fun i hi => by cases hi
      obtain ⟨-, rfl⟩ := LimiterProtocol.readClock_eq_some.mp htable
      exact h'.start hkey' hi hfresh
  | fail i now =>
      obtain ⟨table, hi, htable, rfl⟩ := step_fail hstep
      have hagrees := h.agrees_failure hbounded hi htable
      obtain ⟨hle, htable'⟩ := LimiterProtocol.step_recordFailure htable
      have hclock : table.clock = now := by rw [htable']
      refine h.finish hkey htable rfl rfl hi ?_ (by rwa [hclock])
      rw [hclock]
      exact .failure ((h.verifying i hi).2.pass hle)
  | succeed i =>
      obtain ⟨table, hi, htable, rfl⟩ := step_succeed hstep
      refine h.finish hkey htable rfl rfl hi ?_ ?_
      · cases htable
        exact .reset (h.verifying i hi).2
      · rw [tally_snoc_reset]
        cases htable
        dsimp only
        rw [(clear_settles h.limiter.table.wellFormed (key i)).here]
        exact agrees_cleared
  | releaseGate i =>
      obtain ⟨u, hu, rfl⟩ := Option.map_eq_some_iff.mp hstep
      obtain ⟨table, htable, rfl⟩ := limit_eq_some.mp hu
      refine (h.settle i).limit_outside htable rfl fun j hj => ?_
      cases hj
      refine ⟨fun hlogin => (login_of_reach hlogin (by decide)).1 rfl, fun o ho => ?_⟩
      obtain ⟨o', retryAfter, -, rfl⟩ := LimiterProtocol.step_releaseGate htable
      cases LimiterProtocol.move_phase_self.symm.trans ho
  | leave i =>
      obtain ⟨table, htable, rfl⟩ := limit_eq_some.mp hstep
      obtain ⟨o, hi, rfl⟩ := LimiterProtocol.step_leave htable
      refine h.limit_outside htable rfl fun j hj => ?_
      cases hj
      refine ⟨fun hlogin => ?_, fun o' ho' => ?_⟩
      · have := hbody i hlogin
        rw [hi] at this
        cases this
      · cases LimiterProtocol.move_phase_self.symm.trans ho'

theorem run_inv (hbounded : Bounded config) (hkey : ∀ i j, account i = account j ↔ key i = key j)
    {labels : List (Label ι)} (h : LoginInv config key account s)
    (hrun : fire (step config key) s labels = some t) : LoginInv config key account t :=
  fire_invariant (fun _ _ _ hs hstep => step_inv hbounded hkey hs hstep) h hrun

end Invariant

/-! ## The bound -/

/-- What the limiter guarantees of every account. -/
structure BruteForceBound {ι κ β : Type} [DecidableEq β] (P : Policy Rat) (account : ι → β)
    (s : State ι κ) : Prop where
  /-- one request at a time is between the acquire of its gate and the release -/
  alone : ∀ i j, account i = account j → (s.table.phase i).hasGate = true →
    (s.table.phase j).hasGate = true → i = j
  /-- after a failure that makes one too many no verification starts for the lockout -/
  lockout : ∀ k pre f mid u post,
    accountLog account k s.log = pre ++ .failure f :: mid ++ .start u :: post →
    P.limit ≤ count P (pre ++ [.failure f]) f → f + P.lockout ≤ u
  /-- and a verification before it started no later than it -/
  ordered : ∀ k pre u mid f post,
    accountLog account k s.log = pre ++ .start u :: mid ++ .failure f :: post → u ≤ f
  /-- before a verification fewer failures count than the limit -/
  count : ∀ k pre u post,
    accountLog account k s.log = pre ++ .start u :: post → count P pre u < P.limit

section Bound

variable {ι δ : Type} [DecidableEq ι] [DecidableEq δ] {config : LimiterConfig}
  {casefold : String → String} {sha256 : String → δ} {requests : ι → LoginRequest}

omit [DecidableEq ι] [DecidableEq δ] in
/-- Without collisions the keys of the limiter are the accounts. -/
theorem account_eq_iff
    (hdigest : ∀ i j,
      sha256 ((requests i).normalizedUsername casefold) =
        sha256 ((requests j).normalizedUsername casefold) →
      (requests i).normalizedUsername casefold = (requests j).normalizedUsername casefold)
    (i j : ι) :
    (requests i).account casefold = (requests j).account casefold ↔
      (requests i).key casefold sha256 = (requests j).key casefold sha256 := by
  simp only [LoginRequest.account, LoginRequest.key, Prod.mk.injEq]
  exact and_congr_right fun _ => ⟨fun h => by rw [h], hdigest i j⟩

end Bound

/-! ## Two requests of one account -/

section TwoRequests

def lockOnFirst : LimiterConfig where
  maxFailures := 1
  failureWindowSeconds := 60
  lockoutSeconds := 300
  maxStates_pos := by decide
  cleanupIntervalSeconds_pos := by decide
  cleanupBatchSize_pos := by decide

def twoRequests : Bool → LoginRequest
  | false => ⟨"10.0.0.1", "admin"⟩
  | true => ⟨"10.0.0.1", " admin "⟩

def twoStart : State Bool (String × String) where
  table := { clock := 0, limiter := .new lockOnFirst 0, phase := fun _ => .idle }
  login := fun _ => .fresh
  log := []

/-- The digest of `admin`. -/
def adminDigest (_ : String) : String :=
  "8c6976e5b5410415bde908bd4dee15dfb167a9c873fc4bb8a81f6f2ab448a918"

/-- The first request fails while the second one waits at the gate, which then finds the
account locked. -/
def failThenWait : List (Label Bool) :=
  [.enter false 1, .enter true 1, .acquireGate false, .check false 2, .verify false 2,
    .fail false 3, .releaseGate false, .acquireGate true, .check true 4]

end TwoRequests

end EarlyWarning.LoginProtocol
