/-
# `Lib.Unwinding` — a run with part of it left out

A labelled system that answers: `out s a` is what the label `a` returns in the state `s`, if
it returns anything.  Some labels are visible and the others are hidden.  The hidden ones do
not interfere when a run without them goes through and returns the same for the visible ones,
and `Unwinding` says what has to be shown of single steps for that: a relation that a hidden
step on the left keeps, and that two equal visible steps keep and answer alike under.
-/
import EarlyWarning.Lib.Run

namespace Lib

variable {σ α β : Type*}

/-- The labels of a run that return something, with what they return. -/
def outcomes (step : σ → α → Option σ) (out : σ → α → Option β) : σ → List α → List (α × β)
  | _, [] => []
  | s, a :: as =>
      ((out s a).map fun b => (a, b)).toList ++
        ((step s a).map fun t => outcomes step out t as).getD []

/-- `R` relates a state of a run to one of the run without its hidden labels; the steps of the
run meet `cond`. -/
structure Unwinding (step : σ → α → Option σ) (out : σ → α → Option β) (visible : α → Bool)
    (cond : σ → α → Prop) (R : σ → σ → Prop) : Prop where
  hidden : ∀ {s s' a t}, R s s' → cond s a → visible a = false → step s a = some t → R t s'
  shown : ∀ {s s' a t}, R s s' → cond s a → visible a = true → step s a = some t →
    out s' a = out s a ∧ ∃ t', step s' a = some t' ∧ R t t'

variable {step : σ → α → Option σ} {out : σ → α → Option β} {visible : α → Bool}
  {cond : σ → α → Prop} {R : σ → σ → Prop}

theorem outcomes_cons {s t : σ} {a : α} (h : step s a = some t) (as : List α) :
    outcomes step out s (a :: as) =
      ((out s a).map fun b => (a, b)).toList ++ outcomes step out t as := by
  rw [outcomes, h]
  rfl

/-- What one label returns is left in or out with the label. -/
theorem filter_outcome (visible : α → Bool) (a : α) (b : Option β) :
    ((b.map fun b => (a, b)).toList).filter (fun e => visible e.1) =
      if visible a then (b.map fun b => (a, b)).toList else [] := by
  cases b with
  | none => simp
  | some b => cases h : visible a <;> simp [h]

/-- **The unwinding rule.**  The run without its hidden labels goes through, and the visible
ones return what they did. -/
theorem Unwinding.run (h : Unwinding step out visible cond R) :
    ∀ {as : List α} {s s' t : σ}, R s s' → Every step cond s as → fire step s as = some t →
      (∃ t', fire step s' (as.filter visible) = some t' ∧ R t t') ∧
      outcomes step out s' (as.filter visible) =
        (outcomes step out s as).filter fun e => visible e.1
  | [], _, s', _, hR, _, hrun => by
      obtain rfl := fire_nil.mp hrun
      exact ⟨⟨s', fire_nil.mpr rfl, hR⟩, rfl⟩
  | a :: as, s, s', t, hR, hevery, hrun => by
      obtain ⟨u, hu, hrest⟩ := fire_cons.mp hrun
      rw [outcomes_cons hu, List.filter_append, filter_outcome]
      cases hv : visible a with
      | false =>
          rw [List.filter_cons_of_neg (by simp [hv])]
          obtain ⟨hend, hout⟩ := h.run (h.hidden hR hevery.1 hv hu) (hevery.2 u hu) hrest
          exact ⟨hend, by simpa using hout⟩
      | true =>
          rw [List.filter_cons_of_pos hv]
          obtain ⟨hsame, u', hu', hR'⟩ := h.shown hR hevery.1 hv hu
          obtain ⟨⟨t', ht', hend⟩, hout⟩ := h.run hR' (hevery.2 u hu) hrest
          refine ⟨⟨t', fire_cons.mpr ⟨u', hu', ht'⟩, hend⟩, ?_⟩
          rw [outcomes_cons hu', hsame, hout]
          rfl

end Lib
