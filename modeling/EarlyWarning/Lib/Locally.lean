/-
# `Lib.Locally` — a loop whose every turn is about one thing

A program that goes over a list of things, and for each of them does what concerns this thing
only, has done to each thing on the list what its own turn does, and nothing to the others;
whatever the order, and whatever became of the other turns.

What concerns one thing is its `view` of the state.
-/
import Mathlib.Data.List.Nodup
import Mathlib.Tactic.TypeStar

namespace Lib

variable {σ ι ν : Type*} {op : σ → ι → σ} (view : σ → ι → ν) (spec : ι → ν → ν → Prop)
  {I : σ → Prop}

/-- `hop` says what a turn does to its own view, and `hframe` that it leaves the others alone. -/
theorem foldl_locally {l : List ι} (hkeep : ∀ s i, i ∈ l → I s → I (op s i))
    (hop : ∀ s i, i ∈ l → I s → spec i (view s i) (view (op s i) i))
    (hframe : ∀ s i j, i ∈ l → I s → j ≠ i → view (op s i) j = view s j) (hnodup : l.Nodup) :
    ∀ {s : σ}, I s → I (l.foldl op s) ∧ (∀ i ∈ l, spec i (view s i) (view (l.foldl op s) i)) ∧
      ∀ i ∉ l, view (l.foldl op s) i = view s i := by
  induction l with
  | nil =>
      intro s hs
      exact ⟨hs, fun i hi => (List.not_mem_nil hi).elim, fun _ _ => rfl⟩
  | cons i rest ih =>
      intro s hs
      obtain ⟨hi, hrest⟩ := List.nodup_cons.mp hnodup
      have hmem : ∀ {j}, j ∈ rest → j ∈ i :: rest := fun h => List.mem_cons_of_mem i h
      obtain ⟨hinv, hlater, hothers⟩ := ih (fun s j hj => hkeep s j (hmem hj))
        (fun s j hj => hop s j (hmem hj)) (fun s j k hj => hframe s j k (hmem hj)) hrest
        (hkeep s i List.mem_cons_self hs)
      refine ⟨hinv, fun j hj => ?_, fun j hj => ?_⟩
      · rcases List.mem_cons.mp hj with rfl | hj'
        · rw [List.foldl_cons, hothers j hi]
          exact hop s j List.mem_cons_self hs
        · have hne : j ≠ i := by
            rintro rfl
            exact hi hj'
          rw [← hframe s i j List.mem_cons_self hs hne]
          exact hlater j hj'
      · obtain ⟨hne, hj'⟩ := not_or.mp (fun h => hj (List.mem_cons.mpr h))
        rw [List.foldl_cons, hothers j hj']
        exact hframe s i j List.mem_cons_self hs hne

end Lib
