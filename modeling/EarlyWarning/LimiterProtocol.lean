/-
# `LimiterProtocol` — one object per key, over every interleaving

Any number of attempts, and any number of calls of `retry_after`, `record_failure` and
`clear`, share one limiter.  Each critical section is one step, and the clock never goes
back; between the sections of an attempt everything else interleaves.

The invariant `TableInv` says which object an attempt has: the one its key has in the
table.  What carries it is that a step disturbs no state that somebody refers to
(`Quiet`): a state may be expired, and it may go, but only when its references are zero,
and `counted` makes these the number of attempts inside.
-/
import EarlyWarning.LimiterTable
import EarlyWarning.Lib.Run
import Mathlib.Data.Set.Card
import Mathlib.Logic.Function.Basic

namespace EarlyWarning.LimiterProtocol

open Lib

/-- One call of `attempt`. -/
inductive Phase
  | idle
  /-- it has a reference to the object, and waits at its gate -/
  | waiting (state : ObjId)
  | holding (state : ObjId)
  /-- inside the `with` body, which was given `retryAfter` -/
  | inBody (state : ObjId) (retryAfter : Int)
  /-- the gate is released -/
  | leaving (state : ObjId)
  /-- there was no object for it -/
  | refused (retryAfter : Int)
  | exited
deriving DecidableEq

/-- The object of an attempt that has entered and has not exited. -/
def Phase.object : Phase → Option ObjId
  | .waiting o => some o
  | .holding o => some o
  | .inBody o _ => some o
  | .leaving o => some o
  | _ => none

/-- Between the acquire of the gate and its release. -/
def Phase.hasGate : Phase → Bool
  | .holding _ => true
  | .inBody _ _ => true
  | _ => false

structure State (ι κ : Type) where
  clock : Rat
  limiter : Limiter κ
  phase : ι → Phase

inductive Label (ι κ : Type)
  /-- time passes -/
  | tick (now : Rat)
  | enter (i : ι) (now : Rat)
  | acquireGate (i : ι)
  | check (i : ι) (now : Rat)
  | releaseGate (i : ι)
  | leave (i : ι)
  | retryAfter (k : κ) (now : Rat)
  | recordFailure (k : κ) (now : Rat)
  | clear (k : κ)
deriving DecidableEq

variable {ι κ : Type}

/-- The clock is read; it does not go back. -/
def State.readClock (s : State ι κ) (now : Rat) : Option (State ι κ) :=
  if s.clock ≤ now then some { s with clock := now } else none

section

variable [DecidableEq ι]

/-- Attempt `i` moves on. -/
def State.move (s : State ι κ) (i : ι) (limiter : Limiter κ) (p : Phase) : State ι κ :=
  { s with limiter, phase := Function.update s.phase i p }

variable [DecidableEq κ] (config : LimiterConfig) (key : ι → κ)

def step (s : State ι κ) : Label ι κ → Option (State ι κ)
  | .tick now => s.readClock now
  | .enter i now =>
      match s.phase i with
      | .idle => (s.readClock now).map fun s =>
          match attemptEnter config s.limiter (key i) now with
          | (some state, limiter) => s.move i limiter (.waiting state)
          | (none, limiter) => s.move i limiter (.refused (capacityRetryAfter config))
      | _ => none
  | .acquireGate i =>
      match s.phase i with
      | .waiting state =>
          if (s.limiter.heap state).gate then none
          else some (s.move i (s.limiter.modify state fun st => { st with gate := true })
            (.holding state))
      | _ => none
  | .check i now =>
      match s.phase i with
      | .holding state => (s.readClock now).map fun s =>
          let (retryAfter, limiter) := attemptCheck config s.limiter state now
          s.move i limiter (.inBody state retryAfter)
      | _ => none
  | .releaseGate i =>
      match s.phase i with
      | .inBody state _ =>
          some (s.move i (s.limiter.modify state fun st => { st with gate := false })
            (.leaving state))
      | _ => none
  | .leave i =>
      match s.phase i with
      | .leaving state => some (s.move i (attemptLeave s.limiter (key i) state) .exited)
      | _ => none
  | .retryAfter k now => (s.readClock now).map fun s =>
      { s with limiter := (retryAfter config s.limiter k now).2 }
  | .recordFailure k now => (s.readClock now).map fun s =>
      { s with limiter := (recordFailure config s.limiter k now).2 }
  | .clear k => some { s with limiter := clear s.limiter k }

end

variable [DecidableEq κ] (config : LimiterConfig) (key : ι → κ)

/-- A new limiter, and nobody has come yet. -/
structure Initial (s : State ι κ) : Prop where
  limiter : ∃ now, now ≤ s.clock ∧ s.limiter = Limiter.new config now
  idle : ∀ i, s.phase i = .idle

/-! ## The invariant -/

/-- The attempts of a key that have entered and not exited. -/
def attending (phase : ι → Phase) (k : κ) : Set ι :=
  { i | key i = k ∧ ∃ o, (phase i).object = some o }

structure TableInv (L : Limiter κ) (phase : ι → Phase) : Prop where
  wellFormed : L.WellFormed config
  /-- an attempt has the object its key has -/
  served : ∀ i o, (phase i).object = some o → L.states.get? (key i) = some o
  counted : ∀ k o state, L.lookup k = some (o, state) →
    (attending key phase k).Finite ∧ state.references = (attending key phase k).ncard
  /-- a gate is held by the attempt that has acquired it -/
  gated : ∀ k o state, L.lookup k = some (o, state) →
    (state.gate = true ↔ ∃ i, key i = k ∧ (phase i).hasGate = true)
  alone : ∀ i j, key i = key j → (phase i).hasGate = true → (phase j).hasGate = true → i = j

/-- How many attempts the state of a key knows of; none when there is no state. -/
def referencesOf (entry : Option (ObjId × AttemptState)) : Int :=
  (entry.map fun e => e.2.references).getD 0

/-- The object of a key keeps its references and its gate, unless nobody refers to it. -/
def Quiet (entry entry' : Option (ObjId × AttemptState)) : Prop :=
  (∃ o st st', entry = some (o, st) ∧ entry' = some (o, st') ∧
    st'.references = st.references ∧ st'.gate = st.gate) ∨
  (referencesOf entry = 0 ∧ ∀ o st', entry' = some (o, st') →
    st'.references = 0 ∧ st'.gate = false)

variable {config key} {L L' : Limiter κ} {phase : ι → Phase} {k : κ} {o : ObjId} {i j : ι}
  {state state' : AttemptState} {entry entry' : Option (ObjId × AttemptState)} {now : Rat}
  {p : Phase}

theorem object_of_hasGate (h : p.hasGate = true) : ∃ o, p.object = some o := by
  cases p with
  | holding o => exact ⟨o, rfl⟩
  | inBody o _ => exact ⟨o, rfl⟩
  | _ => cases h

/-! ## What is quiet -/

theorem Quiet.refl (entry : Option (ObjId × AttemptState)) : Quiet entry entry := by
  cases entry with
  | none => exact .inr ⟨rfl, fun _ _ h => by cases h⟩
  | some e => exact .inl ⟨e.1, e.2, e.2, rfl, rfl, rfl, rfl⟩

theorem Quiet.change (hreferences : state'.references = state.references)
    (hgate : state'.gate = state.gate) : Quiet (some (o, state)) (some (o, state')) :=
  .inl ⟨o, state, state', rfl, rfl, hreferences, hgate⟩

/-- Settling drops only what nobody refers to. -/
theorem quiet_settled {f : AttemptState → AttemptState}
    (href : ∀ st, (f st).references = st.references) (hgate : ∀ st, (f st).gate = st.gate)
    (entry : Option (ObjId × AttemptState)) : Quiet entry (settled f entry) := by
  cases entry with
  | none => exact Quiet.refl none
  | some e =>
      obtain ⟨o, st⟩ := e
      rw [settled_some]
      by_cases h : (f st).Inactive
      · rw [if_pos h]
        refine .inr ⟨?_, fun _ _ hnone => by cases hnone⟩
        show st.references = 0
        rw [← href]
        exact h.1
      · rw [if_neg h]
        exact Quiet.change (href st) (hgate st)

theorem quiet_expired (entry : Option (ObjId × AttemptState)) :
    Quiet entry (settled (fun st => expireState config st now) entry) :=
  quiet_settled (fun _ => expireState_references) (fun _ => expireState_gate) entry

theorem quiet_of_swept (h : Swept config now L L') (k : κ) :
    Quiet (L.lookup k) (L'.lookup k) := by
  rcases h.lookup k with heq | heq
  · rw [heq]
    exact Quiet.refl _
  · rw [heq]
    exact quiet_expired _

theorem quiet_of_obtained (h : Obtained config now k L o state L') (k' : κ) :
    Quiet (L.lookup k') (L'.lookup k') := by
  by_cases hk : k' = k
  · rw [hk, h.here]
    rcases h.origin with hkept | ⟨hdropped, -, rfl⟩
    · rw [← hkept]
      exact quiet_expired _
    · have hquiet : Quiet (L.lookup k)
          (settled (fun st => expireState config st now) (L.lookup k)) := quiet_expired _
      rw [hdropped] at hquiet
      rcases hquiet with ⟨_, _, _, _, hnone, -⟩ | ⟨hzero, -⟩
      · cases hnone
      · refine .inr ⟨hzero, fun _ _ heq => ?_⟩
        cases heq
        exact ⟨rfl, rfl⟩
  · rcases h.elsewhere k' hk with heq | heq
    · rw [heq]
      exact Quiet.refl _
    · rw [heq]
      exact quiet_expired _

/-- One object is changed in place. -/
theorem quiet_of_modify {f : AttemptState → AttemptState} (hwf : L.WellFormed config)
    (hk : L.lookup k = some (o, state)) (href : (f state).references = state.references)
    (hgate : (f state).gate = state.gate) (k' : κ) :
    Quiet (L.lookup k') ((L.modify o f).lookup k') := by
  by_cases hne : k' = k
  · rw [hne, hk, lookup_modify_self hk]
    exact Quiet.change href hgate
  · rw [lookup_modify_ne hwf (get?_of_lookup hk) hne]
    exact Quiet.refl _

/-! ## What the invariant gives -/

theorem TableInv.lookup_of_object (h : TableInv config key L phase)
    (hi : (phase i).object = some o) : L.lookup (key i) = some (o, L.heap o) :=
  lookup_of_get? (h.served i o hi)

/-- Nobody attends a key whose references are zero. -/
theorem TableInv.attending_eq_empty (h : TableInv config key L phase)
    (hzero : referencesOf (L.lookup k) = 0) : attending key phase k = ∅ := by
  rw [Set.eq_empty_iff_forall_notMem]
  rintro i ⟨rfl, o, ho⟩
  have hlookup := h.lookup_of_object ho
  obtain ⟨hfinite, hcount⟩ := h.counted _ _ _ hlookup
  rw [hlookup] at hzero
  have hcard : (attending key phase (key i)).ncard = 0 := by
    have : (L.heap o).references = 0 := hzero
    omega
  rw [Set.ncard_eq_zero hfinite] at hcard
  exact Set.eq_empty_iff_forall_notMem.mp hcard i ⟨rfl, o, ho⟩

/-! ## Steps that no attempt moves at -/

theorem TableInv.quiet (h : TableInv config key L phase) (hwf : L'.WellFormed config)
    (hquiet : ∀ k, Quiet (L.lookup k) (L'.lookup k)) : TableInv config key L' phase where
  wellFormed := hwf
  served := fun i o ho => by
    have hlookup := h.lookup_of_object ho
    rcases hquiet (key i) with ⟨o', st, st', heq, heq', -⟩ | ⟨hzero, -⟩
    · rw [hlookup] at heq
      cases heq
      exact get?_of_lookup heq'
    · have hempty := h.attending_eq_empty hzero
      have hmem : i ∈ attending key phase (key i) := ⟨rfl, o, ho⟩
      rw [hempty] at hmem
      cases hmem
  counted := fun k o state hk => by
    rcases hquiet k with ⟨o', st, st', heq, heq', href, -⟩ | ⟨hzero, hidle⟩
    · rw [hk] at heq'
      cases heq'
      rw [href]
      exact h.counted k o st heq
    · rw [h.attending_eq_empty hzero, (hidle o state hk).1]
      simp
  gated := fun k o state hk => by
    rcases hquiet k with ⟨o', st, st', heq, heq', -, hgate⟩ | ⟨hzero, hidle⟩
    · rw [hk] at heq'
      cases heq'
      rw [hgate]
      exact h.gated k o st heq
    · rw [(hidle o state hk).2]
      refine ⟨fun hfalse => absurd hfalse Bool.false_ne_true, ?_⟩
      rintro ⟨i, hi, hheld⟩
      have hmem : i ∈ attending key phase k := ⟨hi, object_of_hasGate hheld⟩
      rw [h.attending_eq_empty hzero] at hmem
      cases hmem
  alone := h.alone

/-! ## Steps of one attempt -/

variable [DecidableEq ι]

omit [DecidableEq κ] in
theorem attending_update_ne (hk : key i ≠ k) :
    attending key (Function.update phase i p) k = attending key phase k := by
  ext j
  simp only [attending, Set.mem_ofPred_eq]
  refine and_congr_right fun hj => ?_
  rw [Function.update_of_ne]
  rintro rfl
  exact hk hj

omit [DecidableEq κ] in
/-- An attempt moves and stays inside. -/
theorem attending_update_inside (ho : (phase i).object = some o) (hp : p.object = some o) :
    attending key (Function.update phase i p) k = attending key phase k := by
  ext j
  simp only [attending, Set.mem_ofPred_eq]
  refine and_congr_right fun _ => ?_
  by_cases hj : j = i
  · rw [hj, Function.update_self, ho, hp]
  · rw [Function.update_of_ne hj]

omit [DecidableEq κ] in
theorem attending_update_enter (hp : p.object = some o) :
    attending key (Function.update phase i p) (key i) = insert i (attending key phase (key i)) := by
  ext j
  simp only [attending, Set.mem_ofPred_eq, Set.mem_insert_iff]
  by_cases hj : j = i
  · rw [hj, Function.update_self]
    simp [hp]
  · rw [Function.update_of_ne hj]
    simp [hj]

omit [DecidableEq κ] in
theorem attending_update_exit (hp : p.object = none) :
    attending key (Function.update phase i p) (key i) = attending key phase (key i) \ {i} := by
  ext j
  simp only [attending, Set.mem_ofPred_eq, Set.mem_sdiff, Set.mem_singleton_iff]
  by_cases hj : j = i
  · rw [hj, Function.update_self]
    simp [hp]
  · rw [Function.update_of_ne hj]
    simp [hj]

/-- Attempt `i` moves to `p`, and the object of its key is changed by `f`. -/
theorem TableInv.update {f : AttemptState → AttemptState} (h : TableInv config key L phase)
    (hlookup : L.lookup (key i) = some (o, state))
    (hobject : p.object = some o ∨ p.object = none)
    (hcounted : (attending key (Function.update phase i p) (key i)).Finite ∧
      (f state).references = (attending key (Function.update phase i p) (key i)).ncard)
    (hgated : (f state).gate = true ↔
      ∃ j, key j = key i ∧ (Function.update phase i p j).hasGate = true)
    (halone : p.hasGate = true → ∀ j, j ≠ i → key j = key i → (phase j).hasGate = false) :
    TableInv config key (L.modify o f) (Function.update phase i p) where
  wellFormed := h.wellFormed.modify o f
  served := fun j o' ho' => by
    show L.states.get? (key j) = some o'
    by_cases hj : j = i
    · rw [hj, Function.update_self] at ho'
      rw [hj, get?_of_lookup hlookup]
      rcases hobject with heq | heq <;> rw [heq] at ho'
      · exact ho'
      · cases ho'
    · rw [Function.update_of_ne hj] at ho'
      exact h.served j o' ho'
  counted := fun k o' st hk => by
    by_cases hne : k = key i
    · subst hne
      rw [lookup_modify_self hlookup] at hk
      cases hk
      exact hcounted
    · rw [lookup_modify_ne h.wellFormed (get?_of_lookup hlookup) hne] at hk
      rw [attending_update_ne (Ne.symm hne)]
      exact h.counted k o' st hk
  gated := fun k o' st hk => by
    by_cases hne : k = key i
    · subst hne
      rw [lookup_modify_self hlookup] at hk
      cases hk
      exact hgated
    · rw [lookup_modify_ne h.wellFormed (get?_of_lookup hlookup) hne] at hk
      rw [h.gated k o' st hk]
      refine exists_congr fun j => and_congr_right fun hj => ?_
      rw [Function.update_of_ne]
      rintro rfl
      exact hne hj.symm
  alone := fun j j' hkey hj hj' => by
    by_cases hji : j = i <;> by_cases hji' : j' = i
    · rw [hji, hji']
    · rw [hji, Function.update_self] at hj
      rw [Function.update_of_ne hji'] at hj'
      rw [halone hj j' hji' (by rw [← hkey, hji])] at hj'
      cases hj'
    · rw [hji', Function.update_self] at hj'
      rw [Function.update_of_ne hji] at hj
      rw [halone hj' j hji (by rw [hkey, hji'])] at hj
      cases hj
    · rw [Function.update_of_ne hji] at hj
      rw [Function.update_of_ne hji'] at hj'
      exact h.alone j j' hkey hj hj'

omit [DecidableEq κ] in
theorem hasGate_update_iff (hp : p.hasGate = (phase i).hasGate) :
    (∃ j, key j = k ∧ (Function.update phase i p j).hasGate = true) ↔
      ∃ j, key j = k ∧ (phase j).hasGate = true := by
  refine exists_congr fun j => and_congr_right fun _ => ?_
  by_cases hj : j = i
  · rw [hj, Function.update_self, hp]
  · rw [Function.update_of_ne hj]

/-- An attempt moves that has no object. -/
theorem TableInv.outside (h : TableInv config key L phase) (hi : (phase i).object = none)
    (hp : p.object = none) : TableInv config key L (Function.update phase i p) := by
  have hgate : ∀ q : Phase, q.object = none → q.hasGate = false := fun q hq => by
    by_contra hheld
    obtain ⟨o, ho⟩ := object_of_hasGate (by simpa using hheld)
    rw [hq] at ho
    cases ho
  have hobject : ∀ j, ((Function.update phase i p) j).object = (phase j).object := fun j => by
    by_cases hj : j = i
    · rw [hj, Function.update_self, hi, hp]
    · rw [Function.update_of_ne hj]
  have hsame : ∀ j, ((Function.update phase i p) j).hasGate = (phase j).hasGate := fun j => by
    by_cases hj : j = i
    · rw [hj, Function.update_self, hgate _ hi, hgate _ hp]
    · rw [Function.update_of_ne hj]
  refine ⟨h.wellFormed, ?_, ?_, ?_, ?_⟩
  · simpa only [hobject] using h.served
  · simpa only [attending, hobject] using h.counted
  · simpa only [hsame] using h.gated
  · simpa only [hsame] using h.alone

/-- A new reference to the object of the key. -/
theorem TableInv.enter (h : TableInv config key L phase) (hi : phase i = .idle)
    (hobtained : Obtained config now (key i) L o state L') :
    TableInv config key (L'.modify o fun st => { st with references := st.references + 1 })
      (Function.update phase i (.waiting o)) := by
  have h' := h.quiet hobtained.wellFormed (quiet_of_obtained hobtained)
  obtain ⟨hfinite, hcount⟩ := h'.counted _ _ _ hobtained.here
  have hout : i ∉ attending key phase (key i) := by
    rintro ⟨-, o', ho'⟩
    rw [hi] at ho'
    cases ho'
  refine h'.update hobtained.here (.inl rfl) ?_ ?_ (fun hgate => by cases hgate)
  · rw [attending_update_enter rfl, Set.ncard_insert_of_notMem hout hfinite]
    refine ⟨hfinite.insert i, ?_⟩
    push_cast
    exact congrArg (· + 1) hcount
  · rw [hasGate_update_iff (by rw [hi]; rfl)]
    exact h'.gated (key i) o state hobtained.here

/-- The gate was free. -/
theorem TableInv.acquireGate (h : TableInv config key L phase) (hi : phase i = .waiting o)
    (hfree : (L.heap o).gate = false) :
    TableInv config key (L.modify o fun st => { st with gate := true })
      (Function.update phase i (.holding o)) := by
  have hlookup := h.lookup_of_object (by rw [hi]; rfl)
  refine h.update hlookup (.inl rfl) ?_ ?_ fun _ j _ hj => ?_
  · rw [attending_update_inside (o := o) (by rw [hi]; rfl) rfl]
    exact h.counted (key i) o (L.heap o) hlookup
  · exact iff_of_true rfl ⟨i, rfl, by rw [Function.update_self]; rfl⟩
  · by_contra hheld
    have hgate := (h.gated _ _ _ hlookup).mpr ⟨j, hj, by simpa using hheld⟩
    rw [hfree] at hgate
    cases hgate

/-- The attempt stays inside, and keeps the gate if it has it. -/
theorem TableInv.stay {f : AttemptState → AttemptState} (h : TableInv config key L phase)
    (hi : (phase i).object = some o) (hp : p.object = some o)
    (hgate : p.hasGate = (phase i).hasGate)
    (hreferences : (f (L.heap o)).references = (L.heap o).references)
    (hkeep : (f (L.heap o)).gate = (L.heap o).gate) :
    TableInv config key (L.modify o f) (Function.update phase i p) := by
  have hlookup := h.lookup_of_object hi
  refine h.update hlookup (.inl hp) ?_ ?_ fun hheld j hne hj => ?_
  · rw [attending_update_inside hi hp, hreferences]
    exact h.counted (key i) o (L.heap o) hlookup
  · rw [hasGate_update_iff hgate, hkeep]
    exact h.gated (key i) o (L.heap o) hlookup
  · by_contra hother
    exact hne (h.alone j i hj (by simpa using hother) (hgate ▸ hheld))

theorem TableInv.releaseGate (h : TableInv config key L phase)
    (hi : (phase i).object = some o) (hheld : (phase i).hasGate = true) :
    TableInv config key (L.modify o fun st => { st with gate := false })
      (Function.update phase i (.leaving o)) := by
  have hlookup := h.lookup_of_object hi
  refine h.update hlookup (.inl rfl) ?_ ?_ (fun hgate => by cases hgate)
  · rw [attending_update_inside hi rfl]
    exact h.counted (key i) o (L.heap o) hlookup
  · refine ⟨fun hfalse => absurd hfalse Bool.false_ne_true, ?_⟩
    rintro ⟨j, hj, hgate⟩
    by_cases hne : j = i
    · rw [hne, Function.update_self] at hgate
      cases hgate
    · rw [Function.update_of_ne hne] at hgate
      exact absurd (h.alone j i hj hgate hheld) hne

/-- The attempt gives its reference back; the state goes with it if nothing else holds it. -/
theorem TableInv.leave (h : TableInv config key L phase) (hi : phase i = .leaving o) :
    TableInv config key (attemptLeave L (key i) o) (Function.update phase i .exited) := by
  have hlookup := h.lookup_of_object (by rw [hi]; rfl)
  obtain ⟨hfinite, hcount⟩ := h.counted _ _ _ hlookup
  have hin : i ∈ attending key phase (key i) := ⟨rfl, o, by rw [hi]; rfl⟩
  have hpos : 0 < (attending key phase (key i)).ncard :=
    (Set.ncard_pos hfinite).mpr ⟨i, hin⟩
  have h' : TableInv config key
      (L.modify o fun st => { st with references := st.references - 1 })
      (Function.update phase i .exited) := by
    refine h.update hlookup (.inr rfl) ?_ ?_ (fun hgate => by cases hgate)
    · rw [attending_update_exit rfl, Set.ncard_sdiff_singleton_of_mem hin]
      refine ⟨hfinite.sdiff, ?_⟩
      dsimp only
      omega
    · rw [hasGate_update_iff (by rw [hi]; rfl)]
      exact h.gated (key i) o (L.heap o) hlookup
  have hsettles := settles_discardIfInactive h.wellFormed (get?_of_lookup hlookup)
    (f := fun st => { st with references := st.references - 1 })
  refine h'.quiet (hsettles.wellFormed h.wellFormed) fun k => ?_
  by_cases hk : k = key i
  · rw [hk, lookup_modify_self hlookup]
    show Quiet _ (Limiter.lookup (discardIfInactive _ _ _) _)
    rw [hsettles.here, hlookup]
    exact quiet_settled (f := id) (fun _ => rfl) (fun _ => rfl) _
  · rw [lookup_modify_ne h.wellFormed (get?_of_lookup hlookup) hk]
    show Quiet _ (Limiter.lookup (discardIfInactive _ _ _) _)
    rw [hsettles.elsewhere k hk]
    exact Quiet.refl _

/-! ## What a step can do -/

section Inversion

omit [DecidableEq ι] [DecidableEq κ] in
theorem readClock_eq_some {s t : State ι κ} :
    s.readClock now = some t ↔ s.clock ≤ now ∧ t = { s with clock := now } := by
  unfold State.readClock
  split
  case isTrue h => simp [h, eq_comm]
  case isFalse h => simp [h]

variable {s t : State ι κ}

theorem step_enter (h : step config key s (.enter i now) = some t) :
    s.phase i = .idle ∧ s.clock ≤ now ∧
      ((∃ o L, attemptEnter config s.limiter (key i) now = (some o, L) ∧
        t = ({ s with clock := now } : State ι κ).move i L (.waiting o)) ∨
      (∃ L, attemptEnter config s.limiter (key i) now = (none, L) ∧
        t = ({ s with clock := now } : State ι κ).move i L
          (.refused (capacityRetryAfter config)))) := by
  unfold step at h
  cases hi : s.phase i with
  | idle =>
      simp only [hi] at h
      obtain ⟨u, hu, rfl⟩ := Option.map_eq_some_iff.mp h
      obtain ⟨hle, rfl⟩ := readClock_eq_some.mp hu
      refine ⟨rfl, hle, ?_⟩
      rcases hr : attemptEnter config s.limiter (key i) now with ⟨found, L⟩
      cases found with
      | some o => exact .inl ⟨o, L, rfl, rfl⟩
      | none => exact .inr ⟨L, rfl, rfl⟩
  | _ => simp [hi] at h

theorem step_acquireGate (h : step config key s (.acquireGate i) = some t) :
    ∃ o, s.phase i = .waiting o ∧ (s.limiter.heap o).gate = false ∧
      t = s.move i (s.limiter.modify o fun st => { st with gate := true }) (.holding o) := by
  unfold step at h
  cases hi : s.phase i with
  | waiting o =>
      simp only [hi] at h
      split at h
      case isTrue => cases h
      case isFalse hfree => exact ⟨o, rfl, by simpa using hfree, (Option.some.inj h).symm⟩
  | _ => simp [hi] at h

theorem step_check (h : step config key s (.check i now) = some t) :
    ∃ o, s.phase i = .holding o ∧ s.clock ≤ now ∧
      t = ({ s with clock := now } : State ι κ).move i (attemptCheck config s.limiter o now).2
        (.inBody o (attemptCheck config s.limiter o now).1) := by
  unfold step at h
  cases hi : s.phase i with
  | holding o =>
      simp only [hi] at h
      obtain ⟨u, hu, rfl⟩ := Option.map_eq_some_iff.mp h
      obtain ⟨hle, rfl⟩ := readClock_eq_some.mp hu
      exact ⟨o, rfl, hle, rfl⟩
  | _ => simp [hi] at h

theorem step_releaseGate (h : step config key s (.releaseGate i) = some t) :
    ∃ o retryAfter, s.phase i = .inBody o retryAfter ∧
      t = s.move i (s.limiter.modify o fun st => { st with gate := false }) (.leaving o) := by
  unfold step at h
  cases hi : s.phase i with
  | inBody o retryAfter =>
      simp only [hi, Option.some.injEq] at h
      exact ⟨o, retryAfter, rfl, h.symm⟩
  | _ => simp [hi] at h

theorem step_leave (h : step config key s (.leave i) = some t) :
    ∃ o, s.phase i = .leaving o ∧
      t = s.move i (attemptLeave s.limiter (key i) o) .exited := by
  unfold step at h
  cases hi : s.phase i with
  | leaving o =>
      simp only [hi, Option.some.injEq] at h
      exact ⟨o, rfl, h.symm⟩
  | _ => simp [hi] at h

theorem step_retryAfter (h : step config key s (.retryAfter k now) = some t) :
    s.clock ≤ now ∧
      t = { s with clock := now, limiter := (retryAfter config s.limiter k now).2 } := by
  obtain ⟨u, hu, rfl⟩ := Option.map_eq_some_iff.mp h
  obtain ⟨hle, rfl⟩ := readClock_eq_some.mp hu
  exact ⟨hle, rfl⟩

theorem step_recordFailure (h : step config key s (.recordFailure k now) = some t) :
    s.clock ≤ now ∧
      t = { s with clock := now, limiter := (recordFailure config s.limiter k now).2 } := by
  obtain ⟨u, hu, rfl⟩ := Option.map_eq_some_iff.mp h
  obtain ⟨hle, rfl⟩ := readClock_eq_some.mp hu
  exact ⟨hle, rfl⟩

end Inversion

/-! ## Every step keeps the invariant -/

/-- The invariant, and no inactive state is left. -/
structure LimiterInv (config : LimiterConfig) (key : ι → κ) (s : State ι κ) : Prop where
  table : TableInv config key s.limiter s.phase
  tidy : s.limiter.Tidy

omit [DecidableEq ι] in
theorem Initial.limiterInv {s : State ι κ} (h : Initial config s) : LimiterInv config key s := by
  obtain ⟨now, -, hnew⟩ := h.limiter
  have hnone : ∀ k, s.limiter.lookup k = none := fun k => by
    rw [hnew]
    rfl
  have hget : ∀ k, s.limiter.states.get? k = none := fun k => lookup_eq_none.mp (hnone k)
  refine ⟨⟨⟨?_, ?_, ?_⟩, ?_, ?_, ?_, ?_⟩, ?_⟩
  · rw [hnew]
    show ((0 : Nat) : Int) ≤ config.maxStates
    have := config.maxStates_pos
    omega
  · intro k o hk
    simp [hget] at hk
  · intro k k' o hk
    simp [hget] at hk
  · intro i o ho
    rw [h.idle i] at ho
    cases ho
  · intro k o state hk
    simp [hnone] at hk
  · intro k o state hk
    simp [hnone] at hk
  · intro i j _ hi
    rw [h.idle i] at hi
    cases hi
  · intro k o state hk
    simp [hnone] at hk

omit [DecidableEq ι] in
/-- An object that an attempt has is referred to. -/
theorem TableInv.references_pos (h : TableInv config key L phase)
    (hi : (phase i).object = some o) : 0 < (L.heap o).references := by
  obtain ⟨hfinite, hcount⟩ := h.counted _ _ _ (h.lookup_of_object hi)
  have hpos := (Set.ncard_pos hfinite).mpr ⟨i, rfl, o, hi⟩
  omega

omit [DecidableEq ι] in
theorem TableInv.active_of_object (h : TableInv config key L phase)
    (hi : (phase i).object = some o) : ¬(L.heap o).Inactive :=
  fun hinactive => (h.references_pos hi).ne' hinactive.1

/-- A change of the object of an attempt that stays inside leaves no inactive state. -/
theorem tidy_update {f : AttemptState → AttemptState} (h : TableInv config key L phase)
    (htidy : L.Tidy) (hi : (phase i).object = some o) (hp : p.object = some o)
    (h' : TableInv config key (L.modify o f) (Function.update phase i p)) :
    (L.modify o f).Tidy := by
  have hlookup := h.lookup_of_object hi
  have hactive := h'.active_of_object (i := i) (by rw [Function.update_self]; exact hp)
  refine htidy.modify h.wellFormed hlookup ?_
  simpa [Limiter.modify] using hactive

theorem step_inv {s t : State ι κ} {a : Label ι κ} (h : LimiterInv config key s)
    (hstep : step config key s a = some t) : LimiterInv config key t := by
  obtain ⟨htable, htidy⟩ := h
  cases a with
  | tick now =>
      obtain ⟨-, rfl⟩ := readClock_eq_some.mp hstep
      exact ⟨htable, htidy⟩
  | enter i now =>
      obtain ⟨hi, -, h | h⟩ := step_enter hstep
      · obtain ⟨o, L, henter, rfl⟩ := h
        rcases attemptEnter_spec htable.wellFormed (key i) now with
          ⟨o', state, L', heq, hobtained⟩ | ⟨heq, -⟩ <;> rw [henter] at heq
        · cases heq
          have htable' := htable.enter hi hobtained
          refine ⟨htable', htidy.obtained hobtained ?_⟩
          have hactive := htable'.active_of_object (i := i) (o := o)
            (by rw [Function.update_self]; rfl)
          rw [(lookup_eq_some.mp (lookup_modify_self hobtained.here)).2] at hactive
          exact hactive
        · cases heq
      · obtain ⟨L, henter, rfl⟩ := h
        rcases attemptEnter_spec htable.wellFormed (key i) now with
          ⟨o', state, L', heq, -⟩ | ⟨heq, -⟩ <;> rw [henter] at heq
        · cases heq
        · cases heq
          have hswept := runScheduledCleanup_swept htable.wellFormed now
          have htable' := htable.quiet (hswept.wellFormed htable.wellFormed)
            (quiet_of_swept hswept)
          exact ⟨htable'.outside (by rw [hi]; rfl) rfl, hswept.tidy htidy⟩
  | acquireGate i =>
      obtain ⟨o, hi, hfree, rfl⟩ := step_acquireGate hstep
      have htable' := htable.acquireGate hi hfree
      exact ⟨htable', tidy_update htable htidy (by rw [hi]; rfl) rfl htable'⟩
  | check i now =>
      obtain ⟨o, hi, -, rfl⟩ := step_check hstep
      have htable' := htable.stay (o := o) (p := .inBody o (attemptCheck config s.limiter o now).1)
        (f := fun st => expireState config st now) (by rw [hi]; rfl) rfl (by rw [hi]; rfl)
        expireState_references expireState_gate
      exact ⟨htable', tidy_update htable htidy (by rw [hi]; rfl) rfl htable'⟩
  | releaseGate i =>
      obtain ⟨o, retryAfter, hi, rfl⟩ := step_releaseGate hstep
      have htable' := htable.releaseGate (o := o) (by rw [hi]; rfl) (by rw [hi]; rfl)
      exact ⟨htable', tidy_update htable htidy (by rw [hi]; rfl) rfl htable'⟩
  | leave i =>
      obtain ⟨o, hi, rfl⟩ := step_leave hstep
      exact ⟨htable.leave hi, htidy.settles (settles_discardIfInactive htable.wellFormed
        (htable.served i o (by rw [hi]; rfl)))⟩
  | retryAfter k now =>
      obtain ⟨-, rfl⟩ := step_retryAfter hstep
      have hswept := retryAfter_swept htable.wellFormed k now
      exact ⟨htable.quiet (hswept.wellFormed htable.wellFormed) (quiet_of_swept hswept),
        hswept.tidy htidy⟩
  | recordFailure k now =>
      obtain ⟨-, rfl⟩ := step_recordFailure hstep
      rcases recordFailure_spec htable.wellFormed k now with
        ⟨o, state, L', heq, hobtained⟩ | ⟨heq, -⟩
      · have htable' := htable.quiet hobtained.wellFormed (quiet_of_obtained hobtained)
        refine ⟨?_, ?_⟩ <;> dsimp only <;> rw [heq]
        · exact htable'.quiet (hobtained.wellFormed.modify o _) (quiet_of_modify
            hobtained.wellFormed hobtained.here addFailure_references addFailure_gate)
        · exact htidy.obtained hobtained (addFailure_active state now)
      · have hswept := runScheduledCleanup_swept htable.wellFormed now
        refine ⟨?_, ?_⟩ <;> dsimp only <;> rw [heq]
        · exact htable.quiet (hswept.wellFormed htable.wellFormed) (quiet_of_swept hswept)
        · exact hswept.tidy htidy
  | clear k =>
      cases hstep
      have hsettles := clear_settles htable.wellFormed k
      refine ⟨htable.quiet (hsettles.wellFormed htable.wellFormed) fun k' => ?_,
        htidy.settles hsettles⟩
      by_cases hk : k' = k
      · rw [hk, hsettles.here]
        exact quiet_settled (f := cleared) (fun _ => rfl) (fun _ => rfl) _
      · rw [hsettles.elsewhere k' hk]
        exact Quiet.refl _

theorem run_inv {s t : State ι κ} {labels : List (Label ι κ)} (h : LimiterInv config key s)
    (hrun : fire (step config key) s labels = some t) : LimiterInv config key t :=
  fire_invariant (fun _ _ _ hs hstep => step_inv hs hstep) h hrun

/-! ## What the table promises -/

section Claim

variable (config key)

/-- The table in a reachable state. -/
structure TableOk (s : State ι κ) : Prop where
  bounded : (s.limiter.states.size : Int) ≤ config.maxStates
  /-- the references of a state are its attempts that have entered and not exited -/
  counted : ∀ k o, s.limiter.states.get? k = some o →
    (attending key s.phase k).Finite ∧
      (s.limiter.heap o).references = (attending key s.phase k).ncard
  /-- the object of an attempt is the one its key has, so attempts of a key share a gate -/
  shared : ∀ i o, (s.phase i).object = some o → s.limiter.states.get? (key i) = some o
  /-- no state without references, failures and lock is left -/
  active : ∀ k o, s.limiter.states.get? k = some o → ¬(s.limiter.heap o).Inactive

/-- A step from `s` to `t`. -/
structure StepOk (s : State ι κ) (a : Label ι κ) (t : State ι κ) : Prop where
  /-- a state with references stays under its key, unless this is the exit of its last
  attempt -/
  kept : ∀ k o, s.limiter.states.get? k = some o → 0 < (s.limiter.heap o).references →
    t.limiter.states.get? k = some o ∨
      ∃ i, a = .leave i ∧ key i = k ∧ (s.limiter.heap o).references = 1
  /-- the cleanup of an attempt leaves the table full, without a state for its key -/
  refused : ∀ i now, a = .enter i now →
    config.maxStates ≤ (runScheduledCleanup config s.limiter now).states.size →
    (runScheduledCleanup config s.limiter now).states.get? (key i) = none →
    (∃ retryAfter, t.phase i = .refused retryAfter ∧ 0 < retryAfter) ∧
      t.limiter = runScheduledCleanup config s.limiter now ∧
      Swept config now s.limiter t.limiter
  /-- the key of the attempt holds a state -/
  served : ∀ i now o, a = .enter i now → s.limiter.states.get? (key i) = some o →
    ∃ o', t.phase i = .waiting o' ∧
      o' = if (expireState config (s.limiter.heap o) now).Inactive then s.limiter.nextObj else o

end Claim

variable {s t : State ι κ} {a : Label ι κ}

omit [DecidableEq ι] in
theorem LimiterInv.tableOk (h : LimiterInv config key s) : TableOk config key s where
  bounded := h.table.wellFormed.bounded
  counted := fun k o hk => h.table.counted k o _ (lookup_of_get? hk)
  shared := h.table.served
  active := fun k o hk => h.tidy k o _ (lookup_of_get? hk)

omit [DecidableEq κ] in
theorem move_phase_self : (s.move i L p).phase i = p := Function.update_self ..

omit [DecidableEq κ] in
theorem move_phase_ne (h : i ≠ j) : (s.move j L p).phase i = s.phase i :=
  Function.update_of_ne h ..

/-- The attempt that a label moves. -/
def mover {ι κ : Type} : Label ι κ → Option ι
  | .enter i _ => some i
  | .acquireGate i => some i
  | .check i _ => some i
  | .releaseGate i => some i
  | .leave i => some i
  | _ => none

/-- Only the attempt that a label is about moves. -/
theorem step_phase (hstep : step config key s a = some t) (hi : mover a ≠ some i) :
    t.phase i = s.phase i := by
  have hne : ∀ j, some j ≠ some i → i ≠ j := fun j hj heq => hj (congrArg some heq.symm)
  cases a with
  | tick now =>
      obtain ⟨-, rfl⟩ := readClock_eq_some.mp hstep
      rfl
  | enter j now =>
      obtain ⟨-, -, h⟩ := step_enter hstep
      rcases h with ⟨o, L, -, rfl⟩ | ⟨L, -, rfl⟩ <;> exact move_phase_ne (hne j hi)
  | acquireGate j =>
      obtain ⟨o, -, -, rfl⟩ := step_acquireGate hstep
      exact move_phase_ne (hne j hi)
  | check j now =>
      obtain ⟨o, -, -, rfl⟩ := step_check hstep
      exact move_phase_ne (hne j hi)
  | releaseGate j =>
      obtain ⟨o, retryAfter, -, rfl⟩ := step_releaseGate hstep
      exact move_phase_ne (hne j hi)
  | leave j =>
      obtain ⟨o, -, rfl⟩ := step_leave hstep
      exact move_phase_ne (hne j hi)
  | retryAfter k now =>
      obtain ⟨-, rfl⟩ := step_retryAfter hstep
      rfl
  | recordFailure k now =>
      obtain ⟨-, rfl⟩ := step_recordFailure hstep
      rfl
  | clear k =>
      cases hstep
      rfl

theorem step_clock (hstep : step config key s a = some t) : s.clock ≤ t.clock := by
  cases a with
  | tick now =>
      obtain ⟨hle, rfl⟩ := readClock_eq_some.mp hstep
      exact hle
  | enter j now =>
      obtain ⟨-, hle, ⟨o, L, -, rfl⟩ | ⟨L, -, rfl⟩⟩ := step_enter hstep <;> exact hle
  | acquireGate j =>
      obtain ⟨o, -, -, rfl⟩ := step_acquireGate hstep
      exact le_refl _
  | check j now =>
      obtain ⟨o, -, hle, rfl⟩ := step_check hstep
      exact hle
  | releaseGate j =>
      obtain ⟨o, retryAfter, -, rfl⟩ := step_releaseGate hstep
      exact le_refl _
  | leave j =>
      obtain ⟨o, -, rfl⟩ := step_leave hstep
      exact le_refl _
  | retryAfter k now =>
      obtain ⟨hle, rfl⟩ := step_retryAfter hstep
      exact hle
  | recordFailure k now =>
      obtain ⟨hle, rfl⟩ := step_recordFailure hstep
      exact hle
  | clear k =>
      cases hstep
      exact le_refl _

/-- Only its exit takes its object from an attempt. -/
theorem step_object (hstep : step config key s a = some t) (hi : (s.phase i).object = some o)
    (hleave : a ≠ .leave i) : (t.phase i).object = some o := by
  by_cases hmover : mover a = some i
  case neg => rw [step_phase hstep hmover, hi]
  case pos =>
    cases a with
    | enter j now =>
        cases hmover
        obtain ⟨hidle, -⟩ := step_enter hstep
        rw [hidle] at hi
        cases hi
    | acquireGate j =>
        cases hmover
        obtain ⟨o', hj, -, rfl⟩ := step_acquireGate hstep
        rw [hj] at hi
        rw [move_phase_self]
        exact hi
    | check j now =>
        cases hmover
        obtain ⟨o', hj, -, rfl⟩ := step_check hstep
        rw [hj] at hi
        rw [move_phase_self]
        exact hi
    | releaseGate j =>
        cases hmover
        obtain ⟨o', retryAfter, hj, rfl⟩ := step_releaseGate hstep
        rw [hj] at hi
        rw [move_phase_self]
        exact hi
    | leave j =>
        cases hmover
        exact absurd rfl hleave
    | tick => cases hmover
    | retryAfter => cases hmover
    | recordFailure => cases hmover
    | clear => cases hmover

/-- A state with references has an attempt inside, and another one but its last. -/
theorem LimiterInv.kept (h : LimiterInv config key s) (hstep : step config key s a = some t)
    (hk : s.limiter.states.get? k = some o) (hpos : 0 < (s.limiter.heap o).references) :
    t.limiter.states.get? k = some o ∨
      ∃ i, a = .leave i ∧ key i = k ∧ (s.limiter.heap o).references = 1 := by
  obtain ⟨hfinite, hcount⟩ := h.tableOk.counted k o hk
  have hserved := (step_inv h hstep).table.served
  -- an attempt of the key that does not exit at this step keeps the object in the table
  have hkeep : ∀ i, i ∈ attending key s.phase k → a ≠ .leave i →
      t.limiter.states.get? k = some o := by
    rintro i ⟨rfl, o', ho'⟩ hne
    have hobj : o' = o := Option.some.inj ((h.table.served i o' ho').symm.trans hk)
    exact hobj ▸ hserved i o' (step_object hstep ho' hne)
  by_cases hone : (s.limiter.heap o).references = 1 ∧ ∃ i, a = .leave i ∧ key i = k
  · obtain ⟨hone, i, ha, hi⟩ := hone
    exact .inr ⟨i, ha, hi, hone⟩
  · left
    obtain ⟨i, hi⟩ : (attending key s.phase k).Nonempty := (Set.ncard_pos hfinite).mp (by omega)
    by_cases ha : a = .leave i
    · have hmany : 1 < (attending key s.phase k).ncard := by
        have : (s.limiter.heap o).references ≠ 1 := fun heq => hone ⟨heq, i, ha, hi.1⟩
        omega
      obtain ⟨j, hj, hji⟩ := Set.exists_ne_of_one_lt_ncard hmany i
      refine hkeep j hj fun heq => hji ?_
      rw [ha] at heq
      cases heq
      rfl
    · exact hkeep i hi ha

theorem capacityRetryAfter_pos : 0 < capacityRetryAfter config :=
  lt_of_lt_of_le (by decide) (le_max_left 1 _)

/-- Whatever an attempt enters, it was refused or got the object of its key. -/
theorem LimiterInv.stepOk (h : LimiterInv config key s)
    (hstep : step config key s a = some t) : StepOk config key s a t where
  kept := fun k o hk hpos => h.kept hstep hk hpos
  refused := by
    rintro i now rfl hfull hnone
    obtain ⟨hi, -, hor⟩ := step_enter hstep
    have heq := attemptEnter_full hfull (lookup_eq_none.mpr hnone)
    rcases hor with ⟨o, L, henter, -⟩ | ⟨L, henter, rfl⟩ <;> rw [heq] at henter
    · cases henter
    · cases henter
      refine ⟨⟨_, Function.update_self .., capacityRetryAfter_pos⟩, rfl, ?_⟩
      exact runScheduledCleanup_swept h.table.wellFormed now
  served := by
    rintro i now o rfl hk
    obtain ⟨hi, -, hor⟩ := step_enter hstep
    have hlookup := lookup_of_get? hk
    rcases attemptEnter_spec h.table.wellFormed (key i) now with
      ⟨o', state, L', heq, hobtained⟩ | ⟨heq, hnone, hfull⟩
    · rcases hor with ⟨o'', L, henter, rfl⟩ | ⟨L, henter, -⟩ <;> rw [heq] at henter
      · cases henter
        refine ⟨o', Function.update_self .., ?_⟩
        have horigin := hobtained.origin
        rw [hlookup, settled_some] at horigin
        by_cases hinactive : (expireState config (s.limiter.heap o) now).Inactive
        · rw [if_pos hinactive] at horigin ⊢
          rcases horigin with hsome | ⟨-, hnew, -⟩
          · cases hsome
          · exact hnew
        · rw [if_neg hinactive] at horigin ⊢
          rcases horigin with hsome | ⟨hnone, -⟩
          · cases hsome
            rfl
          · cases hnone
      · cases henter
    · -- a state that the cleanup dropped has made room
      have hroom := (runScheduledCleanup_swept h.table.wellFormed now).room (key i) hnone
        (by rw [hlookup]; exact Option.some_ne_none _)
      have hbound := h.table.wellFormed.bounded
      omega

section OnePlace

def onePlace : LimiterConfig where
  maxFailures := 5
  failureWindowSeconds := 60
  lockoutSeconds := 300
  maxStates := 1
  cleanupIntervalSeconds := 10
  cleanupBatchSize := 1
  maxStates_pos := by decide
  cleanupIntervalSeconds_pos := by decide
  cleanupBatchSize_pos := by decide

/-- Two attempts of the client `false`, then one of the client `true`. -/
def onePlaceKey : Fin 3 → Bool := fun i => i = 2

def onePlaceStart : State (Fin 3) Bool where
  clock := 0
  limiter := .new onePlace 0
  phase := fun _ => .idle

theorem onePlaceStart_initial : Initial onePlace onePlaceStart :=
  ⟨⟨0, le_refl 0, rfl⟩, fun _ => rfl⟩

end OnePlace

end EarlyWarning.LimiterProtocol
