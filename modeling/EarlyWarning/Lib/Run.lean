/-
# `Lib.Run` — runs of a labelled system, and what a step carries to a run

A labelled system is a partial step function `step : σ → α → Option σ`: `step s a`
is `none` when the label `a` is not enabled in `s`.  `fire step s as` fires a list
of labels in order.  Interleavings are lists of labels, so "for every interleaving"
is a quantifier over lists, and every safety argument below is one induction on
the list, done here once:

  * `fire_invariant` — a property every step keeps holds at the end of every run;
  * `fire_every` — the same for an invariant that only the steps meeting a
    condition keep (`Every`), along the runs all of whose steps meet it;
  * `fire_history` — the same for a property of the run so far.
-/
import Mathlib.Tactic.TypeStar

namespace Lib

variable {σ α : Type*}

/-- Fire the labels of a list in order. -/
def fire (step : σ → α → Option σ) : σ → List α → Option σ
  | s, [] => some s
  | s, a :: as => (step s a).bind fun t => fire step t as

variable {step : σ → α → Option σ}

@[simp] theorem fire_nil {s t : σ} : fire step s [] = some t ↔ s = t := by
  simp [fire]

theorem fire_cons {s t : σ} {a : α} {as : List α} :
    fire step s (a :: as) = some t ↔
      ∃ u, step s a = some u ∧ fire step u as = some t := by
  simp [fire, Option.bind_eq_some_iff]

theorem fire_append {as bs : List α} : ∀ {s t : σ},
    fire step s (as ++ bs) = some t ↔
      ∃ u, fire step s as = some u ∧ fire step u bs = some t := by
  induction as with
  | nil =>
      intro s t
      exact ⟨fun h => ⟨s, fire_nil.mpr rfl, h⟩,
        fun ⟨u, hu, h⟩ => (fire_nil.mp hu).symm ▸ h⟩
  | cons a as ih =>
      intro s t
      rw [List.cons_append, fire_cons]
      constructor
      · rintro ⟨u, hu, h⟩
        obtain ⟨v, hv, ht⟩ := ih.mp h
        exact ⟨v, fire_cons.mpr ⟨u, hu, hv⟩, ht⟩
      · rintro ⟨v, hv, ht⟩
        obtain ⟨u, hu, hv'⟩ := fire_cons.mp hv
        exact ⟨u, hu, ih.mpr ⟨v, hv', ht⟩⟩

/-- **The invariant rule.**  What every step keeps, every run keeps. -/
theorem fire_invariant {I : σ → Prop}
    (hstep : ∀ s a t, I s → step s a = some t → I t) :
    ∀ {as : List α} {s t : σ}, I s → fire step s as = some t → I t
  | [], _, _, hs, h => fire_nil.mp h ▸ hs
  | a :: _, s, _, hs, h => by
      obtain ⟨u, hu, hrest⟩ := fire_cons.mp h
      exact fire_invariant hstep (hstep s a u hs hu) hrest

/-- **The rule of the past.**  What each step adds to what holds of the run so far. -/
theorem fire_history {P : List α → σ → Prop} {s : σ}
    (hstep : ∀ past u a t, fire step s past = some u → P past u → step u a = some t →
      P (past ++ [a]) t) :
    ∀ {as past : List α} {u t : σ}, fire step s past = some u → P past u →
      fire step u as = some t → P (past ++ as) t
  | [], past, _, _, _, hu, h => by
      rw [List.append_nil]
      exact fire_nil.mp h ▸ hu
  | a :: as, past, u, t, hpast, hu, h => by
      obtain ⟨v, hv, hrest⟩ := fire_cons.mp h
      have hnext : fire step s (past ++ [a]) = some v :=
        fire_append.mpr ⟨u, hpast, fire_cons.mpr ⟨v, hv, fire_nil.mpr rfl⟩⟩
      rw [← List.singleton_append, ← List.append_assoc]
      exact fire_history hstep hnext (hstep past u a v hpast hu hv) hrest

/-- Every step of the run from `s` meets `cond` in the state it is fired from. -/
def Every (step : σ → α → Option σ) (cond : σ → α → Prop) : σ → List α → Prop
  | _, [] => True
  | s, a :: as => cond s a ∧ ∀ t, step s a = some t → Every step cond t as

/-- The steps of a run are known, so a condition on them can be checked. -/
instance decEvery (step : σ → α → Option σ) (cond : σ → α → Prop)
    [∀ s a, Decidable (cond s a)] : ∀ s as, Decidable (Every step cond s as)
  | _, [] => isTrue trivial
  | s, a :: as =>
      match h : step s a with
      | none => decidable_of_iff (cond s a)
          ⟨fun hc => ⟨hc, fun _ ht => by rw [h] at ht; cases ht⟩, fun hc => hc.1⟩
      | some t =>
          have : Decidable (Every step cond t as) := decEvery step cond t as
          decidable_of_iff (cond s a ∧ Every step cond t as)
            ⟨fun hc => ⟨hc.1, fun _ ht => by rw [h] at ht; cases ht; exact hc.2⟩,
              fun hc => ⟨hc.1, hc.2 t h⟩⟩

theorem Every.left {cond : σ → α → Prop} {bs : List α} : ∀ {as : List α} {s : σ},
    Every step cond s (as ++ bs) → Every step cond s as
  | [], _, _ => trivial
  | _ :: _, _, h => ⟨h.1, fun t ht => (h.2 t ht).left⟩

theorem Every.append {cond : σ → α → Prop} {bs : List α} : ∀ {as : List α} {s : σ},
    Every step cond s as → (∀ t, fire step s as = some t → Every step cond t bs) →
    Every step cond s (as ++ bs)
  | [], s, _, h => h s (fire_nil.mpr rfl)
  | _ :: _, _, ha, h =>
      ⟨ha.1, fun u hu => (ha.2 u hu).append fun t ht => h t (fire_cons.mpr ⟨u, hu, ht⟩)⟩

/-- The condition of the last step of a run. -/
theorem Every.last {cond : σ → α → Prop} {a : α} {t : σ} : ∀ {as : List α} {s : σ},
    Every step cond s (as ++ [a]) → fire step s as = some t → cond t a
  | [], _, h, hrun => fire_nil.mp hrun ▸ h.1
  | _ :: _, _, h, hrun => by
      obtain ⟨u, hu, hrest⟩ := fire_cons.mp hrun
      exact (h.2 u hu).last hrest

theorem every_of_forall_mem {cond : σ → α → Prop} : ∀ {as : List α} {s : σ},
    (∀ a ∈ as, ∀ s, cond s a) → Every step cond s as
  | [], _, _ => trivial
  | a :: _, s, h => ⟨h a List.mem_cons_self s, fun _ _ =>
      every_of_forall_mem fun b hb => h b (List.mem_cons_of_mem a hb)⟩

/-- **The invariant rule under a condition on the steps.** -/
theorem fire_every {I : σ → Prop} {cond : σ → α → Prop}
    (hstep : ∀ s a t, I s → cond s a → step s a = some t → I t) :
    ∀ {as : List α} {s t : σ}, I s → Every step cond s as → fire step s as = some t → I t
  | [], _, _, hs, _, h => fire_nil.mp h ▸ hs
  | a :: _, s, _, hs, hc, h => by
      obtain ⟨u, hu, hrest⟩ := fire_cons.mp h
      exact fire_every hstep (hstep s a u hs hc.1 hu) (hc.2 u hu) hrest

/-- Two conditions that are the same for every step of an invariant are the same for its runs. -/
theorem every_iff {I : σ → Prop} {p q : σ → α → Prop}
    (hinv : ∀ s a t, I s → step s a = some t → I t)
    (h : ∀ s a t, I s → step s a = some t → (p s a ↔ q s a)) :
    ∀ {as : List α} {s t : σ}, I s → fire step s as = some t →
      (Every step p s as ↔ Every step q s as)
  | [], _, _, _, _ => Iff.rfl
  | a :: _, s, _, hs, hrun => by
      obtain ⟨u, hu, hrest⟩ := fire_cons.mp hrun
      have hrec := every_iff hinv h (hinv s a u hs hu) hrest
      have hnext : ∀ r : σ → α → Prop, ∀ as,
          (∀ v, step s a = some v → Every step r v as) ↔ Every step r u as := by
        intro r as
        constructor
        · intro hall
          exact hall u hu
        · intro hevery v hv
          rw [hu] at hv
          cases hv
          exact hevery
      rw [Every, Every, h s a u hs hu, hnext p, hnext q, hrec]

end Lib
