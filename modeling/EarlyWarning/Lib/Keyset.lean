/-
# `Lib.Keyset` — pages of a table that changes while it is read

A keyset pagination reads a table in descending order of a key, one page after another: a page
is the first rows below the cursor, and the key of its last row is the next cursor.  Nothing
locks the table between two pages.

`Scan` says what has been read of it.  It survives every change that brings no new key into the
table (`Scan.mono`), and the next page extends it (`Scan.next`); a page without rows says that
nothing is left (`Scan.finished`).
-/
import Mathlib.Data.List.Sort
import Mathlib.Order.Defs.LinearOrder
import Mathlib.Tactic.TypeStar

namespace Lib

variable {ρ κ : Type*} [LinearOrder κ]

/-- Below the cursor, when there is one. -/
def Below : Option κ → κ → Prop
  | none, _ => True
  | some c, k => k < c

instance (cursor : Option κ) (k : κ) : Decidable (Below cursor k) :=
  match cursor with
  | none => inferInstanceAs (Decidable True)
  | some c => inferInstanceAs (Decidable (k < c))

variable (key : ρ → κ)

/-- The rows below the cursor, the largest key first. -/
def sortedBelow (cursor : Option κ) (rows : List ρ) : List ρ :=
  (rows.filter fun r => Below cursor (key r)).insertionSort fun a b => key b ≤ key a

def page (size : Nat) (cursor : Option κ) (rows : List ρ) : List ρ :=
  (sortedBelow key cursor rows).take size

/-- What a scan has exported of the rows of a table when its cursor stands at `cursor`. -/
structure Scan (cursor : Option κ) (exported rows : List ρ) : Prop where
  decreasing : exported.Pairwise fun a b => key b < key a
  stands : cursor = exported.getLast?.map key
  covered : ∀ r ∈ rows, Below cursor (key r) ∨ ∃ e ∈ exported, key e = key r

variable {key} {cursor : Option κ} {exported rows rows' : List ρ} {size : Nat} {r last : ρ}

theorem mem_sortedBelow :
    r ∈ sortedBelow key cursor rows ↔ r ∈ rows ∧ Below cursor (key r) := by
  simp [sortedBelow]

theorem sortedBelow_pairwise (hnodup : (rows.map key).Nodup) :
    (sortedBelow key cursor rows).Pairwise fun a b => key b < key a := by
  have htotal : Std.Total fun a b : ρ => key b ≤ key a := ⟨fun a b => le_total (key b) (key a)⟩
  have htrans : IsTrans ρ fun a b => key b ≤ key a := ⟨fun a b c hab hbc => le_trans hbc hab⟩
  have hsorted : (sortedBelow key cursor rows).Pairwise fun a b => key b ≤ key a :=
    List.pairwise_insertionSort _ _
  have hdistinct : (sortedBelow key cursor rows).Pairwise fun a b => key a ≠ key b := by
    have hfilter : ((rows.filter fun r => Below cursor (key r)).map key).Nodup :=
      hnodup.sublist (List.filter_sublist.map key)
    exact List.pairwise_map.mp (((List.perm_insertionSort _ _).map key).nodup_iff.mpr hfilter)
  exact (hsorted.and hdistinct).imp fun h => lt_of_le_of_ne h.1 (Ne.symm h.2)

theorem mem_page (h : r ∈ page key size cursor rows) : r ∈ rows ∧ Below cursor (key r) :=
  mem_sortedBelow.mp (List.mem_of_mem_take h)

theorem page_pairwise (hnodup : (rows.map key).Nodup) :
    (page key size cursor rows).Pairwise fun a b => key b < key a :=
  (sortedBelow_pairwise hnodup).sublist (List.take_sublist _ _)

/-- A row below the cursor that is not on the page is below its last row. -/
theorem below_page (hnodup : (rows.map key).Nodup)
    (hlast : (page key size cursor rows).getLast? = some last) (hr : r ∈ rows)
    (hbelow : Below cursor (key r)) :
    r ∈ page key size cursor rows ∨ key r < key last := by
  have hsplit : page key size cursor rows ++ (sortedBelow key cursor rows).drop size =
      sortedBelow key cursor rows := List.take_append_drop _ _
  have hmem : r ∈ sortedBelow key cursor rows := mem_sortedBelow.mpr ⟨hr, hbelow⟩
  have hsorted : (sortedBelow key cursor rows).Pairwise fun a b => key b < key a :=
    sortedBelow_pairwise hnodup
  rw [← hsplit] at hmem hsorted
  rcases List.mem_append.mp hmem with hmem | hmem
  · exact .inl hmem
  · have hlast' : last ∈ page key size cursor rows := List.mem_of_getLast? hlast
    exact .inr ((List.pairwise_append.mp hsorted).2.2 last hlast' r hmem)

/-! ## The scan -/

theorem Scan.start : Scan key none [] rows :=
  ⟨List.Pairwise.nil, rfl, fun _ _ => .inl trivial⟩

/-- Rows go away, and what else changes has its old key. -/
theorem Scan.mono (h : Scan key cursor exported rows)
    (hkeys : ∀ r' ∈ rows', ∃ r ∈ rows, key r = key r') : Scan key cursor exported rows' := by
  refine ⟨h.decreasing, h.stands, fun r' hr' => ?_⟩
  obtain ⟨r, hr, heq⟩ := hkeys r' hr'
  rw [← heq]
  exact h.covered r hr

/-- The last row has the smallest key. -/
theorem Scan.last_le (h : Scan key cursor exported rows) (hlast : exported.getLast? = some last)
    {e : ρ} (he : e ∈ exported) : key last ≤ key e := by
  obtain ⟨init, rfl⟩ := List.getLast?_eq_some_iff.mp hlast
  rcases List.mem_append.mp he with he | he
  · exact le_of_lt ((List.pairwise_append.mp h.decreasing).2.2 e he last (List.mem_singleton_self _))
  · exact le_of_eq (congrArg key (List.mem_singleton.mp he).symm)

/-- What is below the cursor is below everything exported. -/
theorem Scan.below (h : Scan key cursor exported rows) (hbelow : Below cursor (key r)) {e : ρ}
    (he : e ∈ exported) : key r < key e := by
  cases hlast : exported.getLast? with
  | none =>
      rw [List.getLast?_eq_none_iff.mp hlast] at he
      cases he
  | some last =>
      rw [h.stands, hlast] at hbelow
      exact lt_of_lt_of_le hbelow (h.last_le hlast he)

theorem Scan.next (h : Scan key cursor exported rows) (hnodup : (rows.map key).Nodup)
    (hlast : (page key size cursor rows).getLast? = some last) :
    Scan key (some (key last)) (exported ++ page key size cursor rows) rows := by
  refine ⟨List.pairwise_append.mpr ⟨h.decreasing, page_pairwise hnodup, ?_⟩, ?_, ?_⟩
  · intro e he r hr
    exact h.below (mem_page hr).2 he
  · rw [List.getLast?_append, hlast]
    rfl
  · intro r hr
    rcases h.covered r hr with hbelow | ⟨e, he, heq⟩
    · rcases below_page hnodup hlast hr hbelow with hmem | hlt
      · exact .inr ⟨r, List.mem_append_right _ hmem, rfl⟩
      · exact .inl hlt
    · exact .inr ⟨e, List.mem_append_left _ he, heq⟩

/-- Nothing is left when a page is empty. -/
theorem Scan.finished (h : Scan key cursor exported rows) (hsize : 0 < size)
    (hempty : page key size cursor rows = []) (hr : r ∈ rows) :
    ∃ e ∈ exported, key e = key r := by
  rcases h.covered r hr with hbelow | hcovered
  · have hmem : r ∈ sortedBelow key cursor rows := mem_sortedBelow.mpr ⟨hr, hbelow⟩
    rcases List.take_eq_nil_iff.mp hempty with hzero | hnil
    · omega
    · rw [hnil] at hmem
      cases hmem
  · exact hcovered

end Lib
