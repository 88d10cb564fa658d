/-
# `Lib.Words` — the words of a text

`words blank cs` are the longest pieces of `cs` without a blank: what `str.split()` of Python and
`trim().split(/\s+/)` of JavaScript make of it, each with its own blanks.
-/
import Mathlib.Data.List.Basic
import Mathlib.Tactic.TypeStar

namespace Lib

def words {α : Type*} (blank : α → Bool) (cs : List α) : List (List α) :=
  (cs.splitOnP blank).filter fun word => !word.isEmpty

namespace Words

variable {α : Type*} {blank blank' : α → Bool} {cs : List α} {c : α}

example : words (· == 0) [0, 1, 2, 0, 0, 3] = [[1, 2], [3]] := by decide

/-- Only the blanks of the text matter. -/
theorem words_congr (h : ∀ c ∈ cs, blank c = blank' c) : words blank cs = words blank' cs := by
  have hsplit : cs.splitOnP blank = cs.splitOnP blank' := by
    induction cs with
    | nil => rfl
    | cons c cs ih =>
        rw [List.splitOnP_cons_eq_if_modifyHead, List.splitOnP_cons_eq_if_modifyHead,
          h c List.mem_cons_self, ih fun c hc => h c (List.mem_cons_of_mem _ hc)]
  rw [words, words, hsplit]

/-- What is not a blank is in a word. -/
theorem exists_word (hc : c ∈ cs) (hblank : blank c = false) : ∃ word ∈ words blank cs, c ∈ word := by
  have hpiece : ∃ piece ∈ cs.splitOnP blank, c ∈ piece := by
    induction cs with
    | nil => cases hc
    | cons d cs ih =>
        rw [List.splitOnP_cons_eq_if_modifyHead]
        rcases List.mem_cons.mp hc with rfl | hrest
        · rw [hblank, if_neg (by decide)]
          cases hpieces : cs.splitOnP blank with
          | nil => exact absurd hpieces (List.splitOnP_ne_nil _ _)
          | cons piece pieces => exact ⟨c :: piece, List.mem_cons_self, List.mem_cons_self⟩
        · obtain ⟨piece, hpiece, hmem⟩ := ih hrest
          split
          case isTrue => exact ⟨piece, List.mem_cons_of_mem _ hpiece, hmem⟩
          case isFalse =>
            cases hpieces : cs.splitOnP blank with
            | nil => exact absurd hpieces (List.splitOnP_ne_nil _ _)
            | cons first pieces =>
                rw [hpieces] at hpiece
                rcases List.mem_cons.mp hpiece with rfl | hlater
                · exact ⟨d :: piece, List.mem_cons_self, List.mem_cons_of_mem _ hmem⟩
                · exact ⟨piece, List.mem_cons_of_mem _ hlater, hmem⟩
  obtain ⟨piece, hpiece, hmem⟩ := hpiece
  refine ⟨piece, List.mem_filter.mpr ⟨hpiece, ?_⟩, hmem⟩
  cases piece with
  | nil => cases hmem
  | cons => rfl

end Words

end Lib
