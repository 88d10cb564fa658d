/-
# `LimiterIsolation` — the keys of the limiter do not interfere

A run of the limiter is compared with the run that has the operations of one key only.  In
the first one anybody's cleanup may expire the state of the key or drop it, at any moment;
in the second one nobody else is there.  So the two tables do not agree, and what they agree
on is what a section *finds*: the state of the key as it is after expiry, at the present
moment and at every later one (`SameFrom`).
-/
import EarlyWarning.LimiterProtocol
import EarlyWarning.Lib.Unwinding

namespace EarlyWarning.LimiterProtocol

open Lib

/-! ## Whose operation a label is -/

/-- The key of an operation. -/
def subject {ι κ : Type} (key : ι → κ) : Label ι κ → Option κ
  | .tick _ => none
  | .enter i _ => some (key i)
  | .acquireGate i => some (key i)
  | .check i _ => some (key i)
  | .releaseGate i => some (key i)
  | .leave i => some (key i)
  | .retryAfter k _ => some k
  | .recordFailure k _ => some k
  | .clear k => some k

/-- A label that stays when the operations of the keys other than `k` are deleted. -/
def concerns {ι κ : Type} [DecidableEq κ] (key : ι → κ) (k : κ) (a : Label ι κ) : Bool :=
  decide (subject key a = none ∨ subject key a = some k)

/-- What an operation returns, and what an attempt yields to its body. -/
def returned {ι κ : Type} [DecidableEq κ] (config : LimiterConfig) (key : ι → κ)
    (s : State ι κ) : Label ι κ → Option Int
  | .enter i now =>
      match (attemptEnter config s.limiter (key i) now).1 with
      | some _ => none
      | none => some (capacityRetryAfter config)
  | .check i now =>
      match s.phase i with
      | .holding state => some (attemptCheck config s.limiter state now).1
      | _ => none
  | .retryAfter k now => some (retryAfter config s.limiter k now).1
  | .recordFailure k now => some (recordFailure config s.limiter k now).1
  | _ => none

/-! ## What a section finds -/

/-- The state that a section finds which looks at the moment `t`. -/
def found (config : LimiterConfig) (entry : Option (ObjId × AttemptState)) (t : Rat) :
    Option AttemptState :=
  (settled (fun state => expireState config state t) entry).map Prod.snd

/-- Two tables have the same for a key, from the moment `now` on. -/
def SameFrom (config : LimiterConfig) (entry entry' : Option (ObjId × AttemptState))
    (now : Rat) : Prop :=
  ∀ t, now ≤ t → found config entry t = found config entry' t

section Found

variable {config : LimiterConfig} {entry entry' entry₁ : Option (ObjId × AttemptState)}
  {f : AttemptState → AttemptState} {state state' : AttemptState} {o o' : ObjId}
  {s t now : Rat}

theorem expireState_inactive (h : state.Inactive) : (expireState config state t).Inactive := by
  obtain ⟨hreferences, hfailures, hlock⟩ := h
  refine ⟨expireState_references.trans hreferences, ?_⟩
  rw [expireState_of_not_over fun hover => hover.1 hlock]
  exact ⟨by rw [hfailures]; rfl, hlock⟩

theorem found_some : found config (some (o, state)) t =
    if (expireState config state t).Inactive then none else some (expireState config state t) := by
  unfold found
  rw [settled_some]
  split <;> rfl

/-- A state that somebody refers to is found. -/
theorem found_of_references (h : state.references ≠ 0) :
    found config (some (o, state)) t = some (expireState config state t) := by
  rw [found_some, if_neg fun hinactive => h (expireState_references.symm.trans hinactive.1)]

/-- That an inactive state has been dropped is not seen. -/
theorem found_settled_some :
    found config (settled f (some (o, state))) t = found config (some (o, f state)) t := by
  rw [settled_some]
  by_cases h : (f state).Inactive
  · rw [if_pos h, found_some, if_pos (expireState_inactive h)]
    rfl
  · rw [if_neg h]

/-- That a state has been expired before is not seen. -/
theorem found_settled (hle : now ≤ t) :
    found config (settled (fun state => expireState config state now) entry) t =
      found config entry t := by
  cases entry with
  | none => rfl
  | some e => rw [found_settled_some, found_some, found_some, expireState_expireState hle]

theorem SameFrom.later (h : SameFrom config entry entry' s) (hle : s ≤ t) :
    SameFrom config entry entry' t :=
  fun u hu => h u (le_trans hle hu)

theorem SameFrom.symm (h : SameFrom config entry entry' now) :
    SameFrom config entry' entry now :=
  fun t ht => (h t ht).symm

/-- The first table is cleaned up. -/
theorem SameFrom.swept (h : SameFrom config entry entry' s) (hle : s ≤ now)
    (hentry : entry₁ = entry ∨
      entry₁ = settled (fun state => expireState config state now) entry) :
    SameFrom config entry₁ entry' now := by
  rcases hentry with rfl | rfl
  · exact h.later hle
  · intro t ht
    rw [found_settled ht]
    exact h t (le_trans hle ht)

/-! ## Changes of a state -/

/-- A change that goes through whether the state has been expired or not. -/
def Transparent (config : LimiterConfig) (f : AttemptState → AttemptState) : Prop :=
  ∀ state t, expireState config (f state) t = f (expireState config state t)

theorem transparent_references (g : Int → Int) :
    Transparent config fun state => { state with references := g state.references } := by
  intro state t
  by_cases h : state.lockedUntil ≠ 0 ∧ state.lockedUntil ≤ t
  · rw [expireState_of_over h]
    exact expireState_of_over h
  · rw [expireState_of_not_over h]
    exact expireState_of_not_over h

theorem transparent_gate (gate : Bool) :
    Transparent config fun state => { state with gate } := by
  intro state t
  by_cases h : state.lockedUntil ≠ 0 ∧ state.lockedUntil ≤ t
  · rw [expireState_of_over h]
    exact expireState_of_over h
  · rw [expireState_of_not_over h]
    exact expireState_of_not_over h

theorem transparent_cleared : Transparent config cleared := by
  intro state t
  rw [expireState_of_not_over fun hover => hover.1 rfl]
  simp [cleared]

/-- Two states that are found are the same after expiry. -/
theorem SameFrom.expired (h : SameFrom config (some (o, state)) (some (o', state')) now)
    (hreferences : state.references ≠ 0) (hreferences' : state'.references ≠ 0) (hle : now ≤ t) :
    expireState config state t = expireState config state' t := by
  have hfound := h t hle
  rw [found_of_references hreferences, found_of_references hreferences'] at hfound
  exact Option.some.inj hfound

theorem sameFrom_some
    (h : ∀ t, now ≤ t → expireState config state t = expireState config state' t) :
    SameFrom config (some (o, state)) (some (o', state')) now := fun t ht => by
  rw [found_some, found_some, h t ht]

/-- Both states are changed in one way. -/
theorem SameFrom.change (h : SameFrom config (some (o, state)) (some (o', state')) now)
    (hreferences : state.references ≠ 0) (hreferences' : state'.references ≠ 0)
    (hf : Transparent config f) :
    SameFrom config (some (o, f state)) (some (o', f state')) now :=
  sameFrom_some fun t ht => by
    rw [hf, hf, h.expired hreferences hreferences' ht]

/-- A state that has been cleared is found if somebody refers to it. -/
theorem found_cleared : found config (settled cleared entry) t =
    ((found config entry t).map cleared).filter fun state => ¬state.Inactive := by
  cases entry with
  | none => rfl
  | some e =>
      obtain ⟨o, state⟩ := e
      rw [found_settled_some, found_some, found_some, transparent_cleared]
      by_cases h : (expireState config state t).Inactive
      · rw [if_pos h, if_pos ⟨h.1, rfl, rfl⟩]
        rfl
      · rw [if_neg h, Option.map_some, Option.filter_some]
        by_cases h' : (cleared (expireState config state t)).Inactive <;> simp [h']

theorem SameFrom.cleared (h : SameFrom config entry entry' now) :
    SameFrom config (settled cleared entry) (settled cleared entry') now := fun t ht => by
  rw [found_cleared, found_cleared, h t ht]

end Found

/-! ## What the sections return -/

section Sections

variable {κ : Type} [DecidableEq κ] {config : LimiterConfig} {L L' : Limiter κ} {k : κ}
  {o : ObjId} {state : AttemptState} {now : Rat}

/-- The state that is obtained is the one that is found, or a new one. -/
theorem obtained_state (h : Obtained config now k L o state L') :
    state = (found config (L.lookup k) now).getD {} := by
  unfold found
  rcases h.origin with heq | ⟨heq, -, rfl⟩ <;> rw [heq] <;> rfl

/-- There is a state for the key, or room for one. -/
def HasRoom (config : LimiterConfig) (L : Limiter κ) (k : κ) (now : Rat) : Prop :=
  (runScheduledCleanup config L now).lookup k = none →
    ((runScheduledCleanup config L now).states.size : Int) < config.maxStates

theorem hasRoom_of_size (hwf : L.WellFormed config)
    (hsize : (L.states.size : Int) < config.maxStates) : HasRoom config L k now := by
  intro _
  have hle := (runScheduledCleanup_swept hwf now).size
  omega

/-- A table that holds nothing for the other keys has room for this one. -/
theorem hasRoom_of_alone (hwf : L.WellFormed config)
    (halone : ∀ k', k' ≠ k → L.lookup k' = none) : HasRoom config L k now := by
  intro hnone
  have hswept := runScheduledCleanup_swept hwf now
  generalize runScheduledCleanup config L now = L' at hnone hswept ⊢
  have hall : ∀ k', L'.states.get? k' = none := by
    intro k'
    rw [← lookup_eq_none]
    by_cases hk : k' = k
    · rw [hk, hnone]
    · rcases hswept.lookup k' with heq | heq <;> rw [heq, halone k' hk]
      rfl
  have hempty : L'.states = .empty := by
    refine OrderedDict.ext (List.eq_nil_iff_forall_not_mem.mpr fun e he => ?_)
    exact OrderedDict.get?_eq_none.mp (hall e.1) e.2 he
  rw [hempty]
  show ((0 : Nat) : Int) < config.maxStates
  have := config.maxStates_pos
  omega

theorem attemptEnter_of_room (hwf : L.WellFormed config) (hroom : HasRoom config L k now) :
    ∃ o state L', attemptEnter config L k now =
        (some o, L'.modify o fun st => { st with references := st.references + 1 }) ∧
      Obtained config now k L o state L' := by
  rcases attemptEnter_spec hwf k now with hobtained | ⟨-, hnone, hfull⟩
  · exact hobtained
  · exact absurd (hroom hnone) (not_lt.mpr hfull)

/-- What `record_failure` returns, when the failure is added to `state`. -/
def failureRetryAfter (config : LimiterConfig) (state : AttemptState) : Int :=
  if config.maxFailures ≤ (state.failures.length : Int) + 1 then config.lockoutSeconds else 0

theorem recordFailure_of_room (hwf : L.WellFormed config) (hroom : HasRoom config L k now) :
    ∃ o state L', recordFailure config L k now =
        (failureRetryAfter config state, L'.modify o fun st => addFailure config st now) ∧
      Obtained config now k L o state L' := by
  rcases obtainState_spec hwf k now with ⟨o, state, L', heq, hobtained⟩ | ⟨-, hnone, hfull⟩
  · refine ⟨o, state, L', ?_, hobtained⟩
    unfold recordFailure failureRetryAfter
    rw [heq]
    dsimp only
    rw [(lookup_eq_some.mp hobtained.here).2]
    simp only [decide_eq_true_eq]
  · exact absurd (hroom hnone) (not_lt.mpr hfull)

theorem retryAfter_fst (hwf : L.WellFormed config) :
    (retryAfter config L k now).1 =
      ((found config (L.lookup k) now).map fun state => retryAfterOf state now).getD 0 := by
  have hswept := runScheduledCleanup_swept hwf now
  have hhere := (currentState_settles (hswept.wellFormed hwf) k now).here
  have hfst : (currentState config (runScheduledCleanup config L now) k now).1 =
      (currentState config (runScheduledCleanup config L now) k now).2.states.get? k :=
    currentState_fst _ k now
  rw [hswept.settled_lookup] at hhere
  unfold retryAfter found
  rw [← hhere]
  generalize currentState config (runScheduledCleanup config L now) k now = r at hfst ⊢
  obtain ⟨o, L'⟩ := r
  dsimp only at hfst ⊢
  cases o with
  | none =>
      rw [lookup_eq_none.mpr hfst.symm]
      rfl
  | some o =>
      rw [lookup_of_get? hfst.symm]
      rfl

end Sections

/-! ## A step seen from another key -/

section Elsewhere

variable {ι κ : Type} [DecidableEq ι] [DecidableEq κ] {config : LimiterConfig} {key : ι → κ}
  {s t : State ι κ} {a : Label ι κ} {k : κ}

/-- What the operation of a key does to the state of another one is to expire it. -/
theorem lookup_elsewhere (h : LimiterInv config key s)
    (hstep : step config key s a = some t) (ha : subject key a ≠ some k) :
    t.limiter.lookup k = s.limiter.lookup k ∨
      t.limiter.lookup k =
        settled (fun state => expireState config state t.clock) (s.limiter.lookup k) := by
  obtain ⟨htable, -⟩ := h
  have hne : ∀ k', some k' ≠ some k → k ≠ k' := fun k' hk heq => hk (congrArg some heq.symm)
  cases a with
  | tick now =>
      obtain ⟨-, rfl⟩ := readClock_eq_some.mp hstep
      exact .inl rfl
  | enter i now =>
      obtain ⟨-, -, hor⟩ := step_enter hstep
      rcases attemptEnter_spec htable.wellFormed (key i) now with
        ⟨o, state, L', heq, hobtained⟩ | ⟨heq, -⟩ <;>
      rcases hor with ⟨o', L, henter, rfl⟩ | ⟨L, henter, rfl⟩ <;> rw [heq] at henter <;>
      cases henter
      · have hmodify := lookup_modify_ne (f := fun st => { st with references := st.references + 1 })
          hobtained.wellFormed (get?_of_lookup hobtained.here) (hne _ ha)
        exact (hobtained.elsewhere k (hne _ ha)).imp hmodify.trans hmodify.trans
      · exact (runScheduledCleanup_swept htable.wellFormed now).lookup k
  | acquireGate i =>
      obtain ⟨o, hi, -, rfl⟩ := step_acquireGate hstep
      exact .inl (lookup_modify_ne htable.wellFormed (htable.served i o (by rw [hi]; rfl))
        (hne _ ha))
  | check i now =>
      obtain ⟨o, hi, -, rfl⟩ := step_check hstep
      exact .inl (lookup_modify_ne htable.wellFormed (htable.served i o (by rw [hi]; rfl))
        (hne _ ha))
  | releaseGate i =>
      obtain ⟨o, retryAfter, hi, rfl⟩ := step_releaseGate hstep
      exact .inl (lookup_modify_ne htable.wellFormed (htable.served i o (by rw [hi]; rfl))
        (hne _ ha))
  | leave i =>
      obtain ⟨o, hi, rfl⟩ := step_leave hstep
      exact .inl ((settles_discardIfInactive htable.wellFormed
        (htable.served i o (by rw [hi]; rfl))).elsewhere k (hne _ ha))
  | retryAfter k' now =>
      obtain ⟨-, rfl⟩ := step_retryAfter hstep
      exact (retryAfter_swept htable.wellFormed k' now).lookup k
  | recordFailure k' now =>
      obtain ⟨-, rfl⟩ := step_recordFailure hstep
      dsimp only
      rcases recordFailure_spec htable.wellFormed k' now with
        ⟨o, state, L', heq, hobtained⟩ | ⟨heq, -⟩ <;> rw [heq]
      · have hmodify := lookup_modify_ne (f := fun st => addFailure config st now)
          hobtained.wellFormed (get?_of_lookup hobtained.here) (hne _ ha)
        exact (hobtained.elsewhere k (hne _ ha)).imp hmodify.trans hmodify.trans
      · exact (runScheduledCleanup_swept htable.wellFormed now).lookup k
  | clear k' =>
      cases hstep
      exact .inl ((clear_settles htable.wellFormed k').elsewhere k (hne _ ha))

end Elsewhere

/-! ## The two runs -/

/-- A phase, whatever its object. -/
def Phase.shape : Phase → Phase
  | .waiting _ => .waiting 0
  | .holding _ => .holding 0
  | .inBody _ retryAfter => .inBody 0 retryAfter
  | .leaving _ => .leaving 0
  | p => p

section Shape

variable {p : Phase} {retryAfter : Int}

theorem idle_of_shape (h : p.shape = .idle) : p = .idle := by
  cases p <;> cases h
  rfl

theorem waiting_of_shape (h : p.shape = .waiting 0) : ∃ o, p = .waiting o := by
  cases p <;> cases h
  exact ⟨_, rfl⟩

theorem holding_of_shape (h : p.shape = .holding 0) : ∃ o, p = .holding o := by
  cases p <;> cases h
  exact ⟨_, rfl⟩

theorem inBody_of_shape (h : p.shape = .inBody 0 retryAfter) :
    ∃ o, p = .inBody o retryAfter := by
  cases p <;> cases h
  exact ⟨_, rfl⟩

theorem leaving_of_shape (h : p.shape = .leaving 0) : ∃ o, p = .leaving o := by
  cases p <;> cases h
  exact ⟨_, rfl⟩

end Shape

section Runs

variable {ι κ : Type} [DecidableEq κ]

/-- `s'` is `s` without the operations of the keys other than `k`. -/
structure Alike (config : LimiterConfig) (key : ι → κ) (k : κ) (s s' : State ι κ) : Prop where
  left : LimiterInv config key s
  right : LimiterInv config key s'
  clock : s'.clock ≤ s.clock
  phase : ∀ i, key i = k → (s'.phase i).shape = (s.phase i).shape
  same : SameFrom config (s.limiter.lookup k) (s'.limiter.lookup k) s.clock
  alone : ∀ k', k' ≠ k → s'.limiter.lookup k' = none

variable {config : LimiterConfig} {key : ι → κ} {s s' t t' : State ι κ} {a : Label ι κ} {k : κ}
  {i : ι} {o o' : ObjId} {now : Rat}

theorem Initial.alike (h : Initial config s) (k : κ) : Alike config key k s s := by
  refine ⟨h.limiterInv, h.limiterInv, le_refl _, fun _ _ => rfl, fun _ _ => rfl, fun k' _ => ?_⟩
  obtain ⟨now, -, hnew⟩ := h.limiter
  rw [hnew]
  rfl

/-- The objects of an attempt in the two runs. -/
theorem Alike.objects (h : Alike config key (key i) s s') (hi : (s.phase i).object = some o)
    (hi' : (s'.phase i).object = some o') :
    SameFrom config (some (o, s.limiter.heap o)) (some (o', s'.limiter.heap o')) s.clock ∧
      (s.limiter.heap o).references ≠ 0 ∧ (s'.limiter.heap o').references ≠ 0 := by
  refine ⟨?_, (h.left.table.references_pos hi).ne', (h.right.table.references_pos hi').ne'⟩
  rw [← h.left.table.lookup_of_object hi, ← h.right.table.lookup_of_object hi']
  exact h.same

/-- Their object is changed in one way. -/
theorem Alike.modify {f : AttemptState → AttemptState} (h : Alike config key (key i) s s')
    (hi : (s.phase i).object = some o) (hi' : (s'.phase i).object = some o')
    (hf : Transparent config f) :
    SameFrom config ((s.limiter.modify o f).lookup (key i))
      ((s'.limiter.modify o' f).lookup (key i)) s.clock := by
  obtain ⟨hsame, hreferences, hreferences'⟩ := h.objects hi hi'
  rw [lookup_modify_self (h.left.table.lookup_of_object hi),
    lookup_modify_self (h.right.table.lookup_of_object hi')]
  exact hsame.change hreferences hreferences' hf

variable [DecidableEq ι]

/-- An operation of another key in the first run. -/
theorem Alike.hidden (h : Alike config key k s s') (ha : concerns key k a = false)
    (hstep : step config key s a = some t) : Alike config key k t s' := by
  have hother : subject key a ≠ none ∧ subject key a ≠ some k := by
    simpa [concerns] using ha
  have hclock := step_clock hstep
  refine ⟨step_inv h.left hstep, h.right, le_trans h.clock hclock, fun i hi => ?_,
    h.same.swept hclock (lookup_elsewhere h.left hstep hother.2), h.alone⟩
  rw [h.phase i hi, step_phase hstep fun hmover => hother.2 ?_]
  rw [← hi]
  cases a <;> cases hmover <;> rfl

/-- An operation of the key in both runs. -/
theorem Alike.shown (h : Alike config key k s s') (ha : concerns key k a = true)
    (hstep : step config key s a = some t) (hstep' : step config key s' a = some t')
    (hclock : t'.clock ≤ t.clock)
    (hphase : ∀ i, mover a = some i → (t'.phase i).shape = (t.phase i).shape)
    (hsame : SameFrom config (t.limiter.lookup k) (t'.limiter.lookup k) t.clock) :
    Alike config key k t t' := by
  refine ⟨step_inv h.left hstep, step_inv h.right hstep', hclock, fun i hi => ?_, hsame,
    fun k' hk => ?_⟩
  · by_cases hmover : mover a = some i
    · exact hphase i hmover
    · rw [step_phase hstep hmover, step_phase hstep' hmover]
      exact h.phase i hi
  · have hsubject : subject key a ≠ some k' := by
      intro heq
      have hor : subject key a = none ∨ subject key a = some k := by simpa [concerns] using ha
      rw [heq] at hor
      rcases hor with hnone | hsome
      · cases hnone
      · exact hk (Option.some.inj hsome)
    rcases lookup_elsewhere h.right hstep' hsubject with heq | heq <;> rw [heq, h.alone k' hk]
    rfl

/-! ## The operations of the key, one by one -/

/-- The second run follows a step from `s` to `t`, and answers the same. -/
def Follows (config : LimiterConfig) (key : ι → κ) (k : κ) (s s' : State ι κ) (a : Label ι κ)
    (t : State ι κ) : Prop :=
  returned config key s' a = returned config key s a ∧
    ∃ t', step config key s' a = some t' ∧ Alike config key k t t'

omit [DecidableEq κ] [DecidableEq ι] in
theorem readClock_of_le (h : s.clock ≤ now) :
    s.readClock now = some { s with clock := now } :=
  readClock_eq_some.mpr ⟨h, rfl⟩

theorem Alike.tick (h : Alike config key k s s')
    (hstep : step config key s (.tick now) = some t) :
    Follows config key k s s' (.tick now) t := by
  obtain ⟨hle, rfl⟩ := readClock_eq_some.mp hstep
  have hstep' : step config key s' (.tick now) = some { s' with clock := now } :=
    readClock_of_le (le_trans h.clock hle)
  exact ⟨rfl, _, hstep', h.shown (by simp [concerns, subject]) hstep hstep' (le_refl now)
    (fun i hi => by cases hi) (h.same.later hle)⟩

omit [DecidableEq ι] in
/-- Both runs have a state for the key, and it is the same one. -/
theorem Alike.obtained {L L' : Limiter κ} {state state' : AttemptState}
    (h : Alike config key k s s') (hle : s.clock ≤ now)
    (hobtained : Obtained config now k s.limiter o state L)
    (hobtained' : Obtained config now k s'.limiter o' state' L') (f : AttemptState → AttemptState) :
    state' = state ∧
      SameFrom config ((L.modify o f).lookup k) ((L'.modify o' f).lookup k) now := by
  have hstate : state' = state := by
    rw [obtained_state hobtained, obtained_state hobtained', h.same now hle]
  refine ⟨hstate, ?_⟩
  rw [lookup_modify_self hobtained.here, lookup_modify_self hobtained'.here, hstate]
  exact sameFrom_some fun _ _ => rfl

theorem Alike.enter (h : Alike config key (key i) s s')
    (hsize : (s.limiter.states.size : Int) < config.maxStates)
    (hstep : step config key s (.enter i now) = some t) :
    Follows config key (key i) s s' (.enter i now) t := by
  obtain ⟨hi, hle, hor⟩ := step_enter hstep
  have hroom : HasRoom config s.limiter (key i) now :=
    hasRoom_of_size h.left.table.wellFormed hsize
  have hroom' : HasRoom config s'.limiter (key i) now :=
    hasRoom_of_alone h.right.table.wellFormed h.alone
  obtain ⟨o, state, L, heq, hobtained⟩ := attemptEnter_of_room h.left.table.wellFormed hroom
  obtain ⟨o', state', L', heq', hobtained'⟩ :=
    attemptEnter_of_room h.right.table.wellFormed hroom'
  refine ⟨by simp only [returned, heq, heq'], ?_⟩
  rcases hor with ⟨o₁, L₁, henter, rfl⟩ | ⟨L₁, henter, -⟩ <;> rw [heq] at henter
  · cases henter
    have hi' : s'.phase i = .idle := by
      have hshape := h.phase i rfl
      rw [hi] at hshape
      exact idle_of_shape hshape
    have hstep' : step config key s' (.enter i now) =
        some (({ s' with clock := now } : State ι κ).move i
          (L'.modify o' fun st => { st with references := st.references + 1 }) (.waiting o')) := by
      simp only [step, hi', readClock_of_le (le_trans h.clock hle), Option.map_some, heq']
    refine ⟨_, hstep', h.shown (by simp [concerns, subject]) hstep hstep' (le_refl now) ?_ ?_⟩
    · intro j hj
      cases hj
      rw [move_phase_self, move_phase_self]
      rfl
    · exact (h.obtained hle hobtained hobtained' _).2
  · cases henter

theorem Alike.acquireGate (h : Alike config key (key i) s s')
    (hstep : step config key s (.acquireGate i) = some t) :
    Follows config key (key i) s s' (.acquireGate i) t := by
  obtain ⟨o, hi, hfree, rfl⟩ := step_acquireGate hstep
  obtain ⟨o', hi'⟩ : ∃ o', s'.phase i = .waiting o' := by
    have hshape := h.phase i rfl
    rw [hi] at hshape
    exact waiting_of_shape hshape
  have ho : (s.phase i).object = some o := by rw [hi]; rfl
  have ho' : (s'.phase i).object = some o' := by rw [hi']; rfl
  -- the gate is not part of what expires
  have hfree' : (s'.limiter.heap o').gate = false := by
    obtain ⟨hsame, hreferences, hreferences'⟩ := h.objects ho ho'
    have hgate := congrArg AttemptState.gate
      (hsame.expired hreferences hreferences' (le_refl s.clock))
    rw [expireState_gate, expireState_gate] at hgate
    exact hgate.symm.trans hfree
  have hstep' : step config key s' (.acquireGate i) =
      some (s'.move i (s'.limiter.modify o' fun st => { st with gate := true })
        (.holding o')) := by
    simp [step, hi', hfree']
  refine ⟨rfl, _, hstep', h.shown (by simp [concerns, subject]) hstep hstep' h.clock ?_
    (h.modify ho ho' (transparent_gate true))⟩
  intro j hj
  cases hj
  rw [move_phase_self, move_phase_self]
  rfl

theorem Alike.check (h : Alike config key (key i) s s')
    (hstep : step config key s (.check i now) = some t) :
    Follows config key (key i) s s' (.check i now) t := by
  obtain ⟨o, hi, hle, rfl⟩ := step_check hstep
  obtain ⟨o', hi'⟩ : ∃ o', s'.phase i = .holding o' := by
    have hshape := h.phase i rfl
    rw [hi] at hshape
    exact holding_of_shape hshape
  have ho : (s.phase i).object = some o := by rw [hi]; rfl
  have ho' : (s'.phase i).object = some o' := by rw [hi']; rfl
  obtain ⟨hsame, hreferences, hreferences'⟩ := h.objects ho ho'
  have hexpired := hsame.expired hreferences hreferences' hle
  have hyield : (attemptCheck config s'.limiter o' now).1 =
      (attemptCheck config s.limiter o now).1 := by
    simp [attemptCheck, Limiter.modify, hexpired]
  have hstep' : step config key s' (.check i now) =
      some (({ s' with clock := now } : State ι κ).move i (attemptCheck config s'.limiter o' now).2
        (.inBody o' (attemptCheck config s'.limiter o' now).1)) := by
    simp only [step, hi', readClock_of_le (le_trans h.clock hle), Option.map_some]
  refine ⟨by simp only [returned, hi, hi', hyield], _, hstep',
    h.shown (by simp [concerns, subject]) hstep hstep' (le_refl now) ?_ ?_⟩
  · intro j hj
    cases hj
    rw [move_phase_self, move_phase_self, hyield]
    rfl
  · show SameFrom config ((s.limiter.modify o _).lookup _) ((s'.limiter.modify o' _).lookup _) now
    rw [lookup_modify_self (h.left.table.lookup_of_object ho),
      lookup_modify_self (h.right.table.lookup_of_object ho'), hexpired]
    exact sameFrom_some fun _ _ => rfl

theorem Alike.releaseGate (h : Alike config key (key i) s s')
    (hstep : step config key s (.releaseGate i) = some t) :
    Follows config key (key i) s s' (.releaseGate i) t := by
  obtain ⟨o, retryAfter, hi, rfl⟩ := step_releaseGate hstep
  obtain ⟨o', hi'⟩ : ∃ o', s'.phase i = .inBody o' retryAfter := by
    have hshape := h.phase i rfl
    rw [hi] at hshape
    exact inBody_of_shape hshape
  have ho : (s.phase i).object = some o := by rw [hi]; rfl
  have ho' : (s'.phase i).object = some o' := by rw [hi']; rfl
  have hstep' : step config key s' (.releaseGate i) =
      some (s'.move i (s'.limiter.modify o' fun st => { st with gate := false })
        (.leaving o')) := by
    simp only [step, hi']
  refine ⟨rfl, _, hstep', h.shown (by simp [concerns, subject]) hstep hstep' h.clock ?_
    (h.modify ho ho' (transparent_gate false))⟩
  intro j hj
  cases hj
  rw [move_phase_self, move_phase_self]
  rfl

theorem Alike.leave (h : Alike config key (key i) s s')
    (hstep : step config key s (.leave i) = some t) :
    Follows config key (key i) s s' (.leave i) t := by
  obtain ⟨o, hi, rfl⟩ := step_leave hstep
  obtain ⟨o', hi'⟩ : ∃ o', s'.phase i = .leaving o' := by
    have hshape := h.phase i rfl
    rw [hi] at hshape
    exact leaving_of_shape hshape
  have ho : (s.phase i).object = some o := by rw [hi]; rfl
  have ho' : (s'.phase i).object = some o' := by rw [hi']; rfl
  have hstep' : step config key s' (.leave i) =
      some (s'.move i (attemptLeave s'.limiter (key i) o') .exited) := by
    simp only [step, hi']
  refine ⟨rfl, _, hstep', h.shown (by simp [concerns, subject]) hstep hstep' h.clock ?_ ?_⟩
  · intro j hj
    cases hj
    rw [move_phase_self, move_phase_self]
  · obtain ⟨hsame, hreferences, hreferences'⟩ := h.objects ho ho'
    have hgone := hsame.change hreferences hreferences' (transparent_references (· - 1))
    intro t ht
    show found config (Limiter.lookup (discardIfInactive _ _ _) _) t =
      found config (Limiter.lookup (discardIfInactive _ _ _) _) t
    rw [(settles_discardIfInactive h.left.table.wellFormed (h.left.table.served i o ho)).here,
      (settles_discardIfInactive h.right.table.wellFormed (h.right.table.served i o' ho')).here,
      h.left.table.lookup_of_object ho, h.right.table.lookup_of_object ho',
      found_settled_some, found_settled_some]
    exact hgone t ht

theorem Alike.retryAfter (h : Alike config key k s s')
    (hstep : step config key s (.retryAfter k now) = some t) :
    Follows config key k s s' (.retryAfter k now) t := by
  obtain ⟨hle, rfl⟩ := step_retryAfter hstep
  have hwf := h.left.table.wellFormed
  have hwf' := h.right.table.wellFormed
  have hstep' : step config key s' (.retryAfter k now) =
      some { s' with
        clock := now, limiter := (EarlyWarning.retryAfter config s'.limiter k now).2 } := by
    simp only [step, readClock_of_le (le_trans h.clock hle), Option.map_some]
  refine ⟨?_, _, hstep', h.shown (by simp [concerns, subject]) hstep hstep' (le_refl now)
    (fun i hi => by cases hi) ?_⟩
  · simp only [returned]
    rw [retryAfter_fst hwf, retryAfter_fst hwf', h.same now hle]
  · have hswept := h.same.swept hle ((retryAfter_swept hwf k now).lookup k)
    exact (hswept.symm.swept (le_refl now) ((retryAfter_swept hwf' k now).lookup k)).symm

theorem Alike.recordFailure (h : Alike config key k s s')
    (hsize : (s.limiter.states.size : Int) < config.maxStates)
    (hstep : step config key s (.recordFailure k now) = some t) :
    Follows config key k s s' (.recordFailure k now) t := by
  obtain ⟨hle, rfl⟩ := step_recordFailure hstep
  have hroom : HasRoom config s.limiter k now := hasRoom_of_size h.left.table.wellFormed hsize
  have hroom' : HasRoom config s'.limiter k now :=
    hasRoom_of_alone h.right.table.wellFormed h.alone
  obtain ⟨o, state, L, heq, hobtained⟩ := recordFailure_of_room h.left.table.wellFormed hroom
  obtain ⟨o', state', L', heq', hobtained'⟩ :=
    recordFailure_of_room h.right.table.wellFormed hroom'
  obtain ⟨hstate, hsame⟩ := h.obtained hle hobtained hobtained'
    fun st => addFailure config st now
  have hstep' : step config key s' (.recordFailure k now) =
      some { s' with clock := now
                     limiter := (EarlyWarning.recordFailure config s'.limiter k now).2 } := by
    simp only [step, readClock_of_le (le_trans h.clock hle), Option.map_some]
  refine ⟨by simp only [returned, heq, heq', hstate], _, hstep',
    h.shown (by simp [concerns, subject]) hstep hstep' (le_refl now)
      (fun i hi => by cases hi) ?_⟩
  dsimp only
  rw [heq, heq']
  exact hsame

theorem Alike.clear (h : Alike config key k s s')
    (hstep : step config key s (.clear k) = some t) :
    Follows config key k s s' (.clear k) t := by
  have hstep' : step config key s' (.clear k) =
      some { s' with limiter := EarlyWarning.clear s'.limiter k } := rfl
  have hclock : s'.clock ≤ t.clock := le_trans h.clock (step_clock hstep)
  refine ⟨rfl, _, hstep', h.shown (by simp [concerns, subject]) hstep hstep' hclock
    (fun i hi => by cases hi) ?_⟩
  cases hstep
  dsimp only
  rw [(clear_settles h.left.table.wellFormed k).here,
    (clear_settles h.right.table.wellFormed k).here]
  exact h.same.cleared

theorem Alike.follows (h : Alike config key k s s')
    (hsize : (s.limiter.states.size : Int) < config.maxStates) (ha : concerns key k a = true)
    (hstep : step config key s a = some t) : Follows config key k s s' a t := by
  cases a with
  | tick now => exact h.tick hstep
  | enter i now =>
      obtain rfl : key i = k := by simpa [concerns, subject] using ha
      exact h.enter hsize hstep
  | acquireGate i =>
      obtain rfl : key i = k := by simpa [concerns, subject] using ha
      exact h.acquireGate hstep
  | check i now =>
      obtain rfl : key i = k := by simpa [concerns, subject] using ha
      exact h.check hstep
  | releaseGate i =>
      obtain rfl : key i = k := by simpa [concerns, subject] using ha
      exact h.releaseGate hstep
  | leave i =>
      obtain rfl : key i = k := by simpa [concerns, subject] using ha
      exact h.leave hstep
  | retryAfter k' now =>
      obtain rfl : k' = k := by simpa [concerns, subject] using ha
      exact h.retryAfter hstep
  | recordFailure k' now =>
      obtain rfl : k' = k := by simpa [concerns, subject] using ha
      exact h.recordFailure hsize hstep
  | clear k' =>
      obtain rfl : k' = k := by simpa [concerns, subject] using ha
      exact h.clear hstep

/-! ## Every run -/

/-- The table has not reached its bound. -/
def BelowBound (config : LimiterConfig) (s : State ι κ) : Prop :=
  (s.limiter.states.size : Int) < config.maxStates

instance (config : LimiterConfig) (s : State ι κ) : Decidable (BelowBound config s) :=
  inferInstanceAs (Decidable (_ < _))

theorem unwinding (config : LimiterConfig) (key : ι → κ) (k : κ) :
    Unwinding (step config key) (returned config key) (concerns key k)
      (fun s _ => BelowBound config s) (Alike config key k) where
  hidden := fun h _ ha hstep => h.hidden ha hstep
  shown := fun h hsize ha hstep => h.follows hsize ha hstep

end Runs

/-! ## A state that goes in one run only -/

section TwoClients

def threePlaces : LimiterConfig :=
  { onePlace with
    maxFailures := 2
    maxStates := 3
    maxStates_pos := by decide }

def twoClients : State Bool Bool where
  clock := 0
  limiter := .new threePlaces 0
  phase := fun _ => .idle

theorem twoClients_initial : Initial threePlaces twoClients :=
  ⟨⟨0, le_refl 0, rfl⟩, fun _ => rfl⟩

/-- The failure of the client `true` drops the state of the client `false`, whose own failure
has passed. -/
def twoClientsRun : List (Label Bool Bool) :=
  [.recordFailure false 0, .recordFailure true 61, .retryAfter false 62, .recordFailure false 63,
    .recordFailure false 64, .enter false 65, .acquireGate false, .clear true, .check false 66]

end TwoClients

end EarlyWarning.LimiterProtocol
