/-
# `Retry` — how many attempts a request makes

The loop of `execute_rule_by_id` stops at the first attempt whose result is not
retryable, or when the attempts are used up.  `attemptLoop_wp` is its specification: the
attempts it made, newest first, all but the newest of them retryable, and one call of
`sleep_fn` between two attempts when there is a delay.

The mailer, the executor and `_is_retryable_result` each look at a summary of what
happened.  A result is only retryable when no address has accepted a message wherever it
stands among the recipients (`AttemptRecord.Retried.none_throughout`).  So a retry repeats
no mail as long as the answers of the server are `Steady`: a message that is accepted at all
is not taken to be refused for an address that stands twice.
-/
import EarlyWarning.Attempt

namespace EarlyWarning

open Lib

variable {libs : Libraries} {env : RunEnv} {rule : AlertRule} {db : Db} {r : AttemptRecord}
  {result : ExecutionResult} {attempt : ExecutionAttempt}

/-! ## A retryable result -/

theorem isRetryableResult_failed (h : isRetryableResult result = true) :
    result.status = .failed := by
  unfold isRetryableResult at h
  split at h
  · cases h
  · rename_i hs
    exact not_not.mp hs

/-- A failed result of sent messages: no message was answered with a success of any kind. -/
theorem statusForMailResults_failed {mailResults : List ExecutionMailResult}
    (h : statusForMailResults mailResults = .failed) :
    ∀ mailResult ∈ mailResults,
      (mailResult.result.success || mailResult.result.partialSuccess) = false := by
  unfold statusForMailResults at h
  split at h
  · cases h
  · split at h
    case isTrue hnone =>
      obtain ⟨hcount, hmixed⟩ := hnone
      intro mailResult hm
      have hsuccess := List.countP_eq_zero.mp hcount mailResult hm
      rw [Bool.not_eq_true, List.any_eq_false] at hmixed
      simpa [hsuccess] using hmixed mailResult hm
    case isFalse => cases h

/-- The answers of the messages and what became of them, message by message. -/
theorem answered_mem {ds : List Delivery} {mailResults : List ExecutionMailResult}
    (h : List.Forall₂ Delivery.Answered ds mailResults) {d : Delivery} (hd : d ∈ ds) :
    ∃ mailResult ∈ mailResults, d.Answered mailResult := by
  induction h with
  | nil => cases hd
  | @cons d' mr ds' mrs hdm _ ih =>
      obtain rfl | hd := List.mem_cons.mp hd
      · exact ⟨mr, List.mem_cons_self, hdm⟩
      · obtain ⟨mailResult, hm, ha⟩ := ih hd
        exact ⟨mailResult, List.mem_cons_of_mem _ hm, ha⟩

/-- Whoever accepts a message of the attempt, there is an address that accepts one wherever
it stands. -/
def AttemptRecord.Steady (r : AttemptRecord) : Prop :=
  (∃ d ∈ r.handed, d.acceptedBySome = true) → ∃ d ∈ r.handed, d.acceptedThroughout = true

/-- **A failed attempt has reached no address wherever it stands.** -/
theorem Outcome.failed_none_throughout (h : Outcome r result) (hs : result.status = .failed) :
    ∀ d ∈ r.handed, d.acceptedThroughout = false := by
  cases h with
  | failed exc result _ _ hhanded =>
      intro d hd
      rw [hhanded] at hd
      cases hd
  | empty => cases hs
  | sent rows messages mailResults _ _ _ _ hanswers =>
      intro d hd
      obtain ⟨mailResult, hm, ha⟩ := answered_mem hanswers hd
      rw [← ha.throughout]
      exact statusForMailResults_failed hs mailResult hm

/-! ## The loop -/

/-- The attempt returned a result that is tried again. -/
def AttemptRecord.Retried (libs : Libraries) (db : Db) (rule : AlertRule)
    (r : AttemptRecord) : Prop :=
  ∃ attempt, r.Returned libs db rule attempt ∧ isRetryableResult attempt.result = true

theorem AttemptRecord.Retried.none_throughout (h : r.Retried libs db rule) :
    ∀ d ∈ r.handed, d.acceptedThroughout = false := by
  obtain ⟨attempt, hret, hretry⟩ := h
  exact hret.outcome.failed_none_throughout (isRetryableResult_failed hretry)

/-- An attempt that is tried again has reached nobody when the answers were steady. -/
theorem AttemptRecord.Retried.nothing_accepted (h : r.Retried libs db rule) (hr : r.Steady) :
    ∀ d ∈ r.handed, d.acceptedBySome = false := by
  intro d hd
  by_contra haccepted
  obtain ⟨d', hd', hthroughout⟩ := hr ⟨d, hd, by simpa using haccepted⟩
  rw [h.none_throughout d' hd'] at hthroughout
  cases hthroughout

/-- A run whose session is as it was, with more attempts made. -/
structure World.Continues (w t : World) (ruleId : Nat) (rule : AlertRule)
    (attempts : List AttemptRecord) : Prop where
  store : t.store = w.store
  ready : t.Ready ruleId rule
  attempts_eq : t.attempts = attempts ++ w.attempts

theorem World.Ready.inAttempt {w : World} {ruleId n : Nat} {ru : Option AlertRule}
    {st : Option SuppressionState} (hw : w.Ready ruleId rule)
    (hru : ru = none ∨ ru = some rule) : (w.inAttempt n ru st r).Ready ruleId rule :=
  ⟨hw.pending, hw.found, hru⟩

/-- `sleep_fn` is called, and may raise. -/
theorem sleepFn_wp {seconds : Rat} {w : World} {Q : Unit → World → Prop}
    {E : PyExc → World → Prop} (hok : Q () { w with sleeps := seconds :: w.sleeps })
    (herr : ∀ e k, env.sleep k = some e → E e { w with sleeps := seconds :: w.sleeps }) :
    wp (sleepFn env seconds) Q E w := by
  unfold sleepFn
  rw [wp_bind, wp_get, wp_bind, wp_set]
  cases hsleep : env.sleep w.sleeps.length with
  | none => exact hok
  | some e => exact herr e _ hsleep

/-- The calls of `sleep_fn` between `n + 1` attempts. -/
def pauses (delay : Rat) (n : Nat) : List Rat := if delay > 0 then List.replicate n delay else []

theorem pauses_append (delay : Rat) (m n : Nat) :
    pauses delay m ++ pauses delay n = pauses delay (m + n) := by
  unfold pauses
  split
  · exact List.replicate_append_replicate
  · rfl

theorem World.Continues.trans {u v w : World} {ruleId : Nat} {as bs : List AttemptRecord}
    (h : u.Continues v ruleId rule as) (h' : v.Continues w ruleId rule bs) :
    u.Continues w ruleId rule (bs ++ as) :=
  ⟨h'.store.trans h.store, h'.ready, by rw [h'.attempts_eq, h.attempts_eq, List.append_assoc]⟩

/-- An attempt did not return, or a pause raised. -/
def Raised (env : RunEnv) (attempts : List AttemptRecord) : Prop :=
  (∃ r ∈ attempts, r.returned = none) ∨ ∃ k, (env.sleep k).isSome = true

/-- **The retry loop**, by induction on the attempts it may still make. -/
theorem attemptLoop_wp {ruleId : Nat} {delay : Rat} : ∀ {remaining k : Nat} {w : World}
    {Q : ExecutionAttempt × Nat → World → Prop} {E : PyExc → World → Prop},
    w.Ready ruleId rule → 0 < remaining →
    (∀ t last earlier attempt, w.Continues t ruleId rule (last :: earlier) →
      last.Returned libs w.store.work rule attempt →
      (∀ r ∈ earlier, r.Retried libs w.store.work rule) →
      earlier.length + 1 ≤ remaining →
      (isRetryableResult attempt.result = true → earlier.length + 1 = remaining) →
      t.sleeps = pauses delay earlier.length ++ w.sleeps →
      Q (attempt, k + earlier.length) t) →
    (∀ e t attempts, w.Continues t ruleId rule attempts →
      (∀ r ∈ attempts, r.Follows libs w.store.work rule) →
      (∀ r ∈ attempts.tail, r.Retried libs w.store.work rule) →
      attempts.length ≤ remaining → Raised env attempts → E e t) →
    wp (attemptLoop libs env ruleId delay k remaining) Q E w
  | 0, _, _, _, _, _, hpos, _, _ => absurd hpos (Nat.lt_irrefl 0)
  | remaining + 1, k, w, Q, E, hw, _, hok, herr => by
      unfold attemptLoop
      rw [wp_bind]
      refine executeRuleOnce_wp hw (fun n ru st r attempt hru hret => ?_)
        fun e n ru st r hru hnone hf => ?_
      · by_cases hfinal : (!isRetryableResult attempt.result || remaining == 0) = true
        · simp only [hfinal, if_true, wp_pure]
          refine hok _ r [] attempt ⟨rfl, hw.inAttempt hru, rfl⟩ hret (fun _ h => by cases h)
            (Nat.succ_le_succ (Nat.zero_le _)) (fun hretry => ?_) (by simp [pauses, World.inAttempt])
          have hzero : remaining = 0 := by simpa [hretry] using hfinal
          simp [hzero]
        · rw [if_neg hfinal]
          obtain ⟨hretry, hpos⟩ : isRetryableResult attempt.result = true ∧ 0 < remaining := by
            simp only [Bool.or_eq_true, Bool.not_eq_true', beq_iff_eq, not_or] at hfinal
            exact ⟨by simpa using hfinal.1, Nat.pos_of_ne_zero hfinal.2⟩
          have hretried : r.Retried libs w.store.work rule := ⟨attempt, hret, hretry⟩
          -- the rest of the loop, whether or not there was a pause
          have hrest : ∀ u, w.Continues u ruleId rule [r] →
              u.sleeps = pauses delay 1 ++ w.sleeps →
              wp (attemptLoop libs env ruleId delay (k + 1) remaining) Q E u := by
            intro u hu hsleeps
            refine attemptLoop_wp hu.ready hpos
              (fun t last earlier attempt' ht hret' hall hlen hstop hsl => ?_)
              fun e t attempts ht hfol htail hlen hraised => ?_
            · rw [hu.store] at hret' hall
              have h := hok t last (earlier ++ [r]) attempt' (hu.trans ht) hret'
                (by simpa [or_imp, forall_and] using ⟨hall, hretried⟩) (by simpa using hlen)
                (fun h => by simpa using hstop h)
                (by rw [hsl, hsleeps, ← List.append_assoc, pauses_append]; simp)
              simpa [Nat.add_assoc, Nat.add_comm 1] using h
            · rw [hu.store] at hfol htail
              have hraised' : Raised env (attempts ++ [r]) := by
                refine hraised.imp_left ?_
                rintro ⟨r', hr', h⟩
                exact ⟨r', List.mem_append_left _ hr', h⟩
              refine herr e t (attempts ++ [r]) (hu.trans ht) ?_ ?_ (by simpa using hlen) hraised'
              · simpa [or_imp, forall_and] using ⟨hfol, hret.follows⟩
              · cases attempts with
                | nil => intro _ h; cases h
                | cons a as => simpa [or_imp, forall_and] using ⟨htail, hretried⟩
          by_cases hdelay : delay > 0
          · simp only [hdelay, if_true, wp_bind]
            have hready : (w.inAttempt n ru st r).Ready ruleId rule := hw.inAttempt hru
            refine sleepFn_wp (hrest _ ⟨rfl, ⟨hready.pending, hready.found, hready.fresh⟩, rfl⟩
              (by simp [pauses, hdelay, World.inAttempt])) fun e j hj => herr e _ [r]
                ⟨rfl, ⟨hready.pending, hready.found, hready.fresh⟩, rfl⟩
                (by simpa using hret.follows) (fun _ h => by cases h)
                (Nat.succ_le_succ (Nat.zero_le _)) (.inr ⟨j, by rw [hj]; rfl⟩)
          · simp only [hdelay, if_false]
            exact hrest _ ⟨rfl, hw.inAttempt hru, rfl⟩ (by simp [pauses, hdelay, World.inAttempt])
      · exact herr e _ [r] ⟨rfl, hw.inAttempt hru, rfl⟩ (by simpa using hf)
          (fun _ h => by cases h) (Nat.succ_le_succ (Nat.zero_le _))
          (.inl ⟨r, List.mem_cons_self, hnone⟩)

end EarlyWarning
