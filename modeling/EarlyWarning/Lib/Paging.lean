/-
# `Lib.Paging` — pages by offset, each from a query of its own

`ORDER BY key DESC LIMIT size OFFSET offset` cuts a page out of the rows in descending order of
their keys.  Where keys are equal a database answers in an order of its choice, and it may choose
another one for the next page.

The keys on the pages are always those of the rows, in their order (`pages_map_key`).  The rows
are the rows, each on one page, whatever the database chooses exactly when no boundary between
two pages separates rows of one key (`pages_perm_iff`).
-/
import Mathlib.Data.List.Flatten
import Mathlib.Data.List.Sort
import Mathlib.Order.Defs.LinearOrder
import Mathlib.Tactic.TypeStar

namespace Lib

variable {ρ κ : Type*} [LinearOrder κ]

/-- The rows as one query returns them. -/
structure Answer (key : ρ → κ) (rows : List ρ) where
  ordered : List ρ
  perm : ordered.Perm rows
  descending : ordered.Pairwise fun a b => key b ≤ key a

/-- The answer with `OFFSET offset LIMIT size`. -/
def Answer.slice {key : ρ → κ} {rows : List ρ} (answer : Answer key rows) (offset size : Nat) :
    List ρ :=
  (answer.ordered.drop offset).take size

/-- The first `count` pages, one after another. -/
def pages {key : ρ → κ} {rows : List ρ} (answers : Nat → Answer key rows) (size count : Nat) :
    List ρ :=
  (List.range count).flatMap fun i => (answers i).slice (i * size) size

/-- A boundary between two pages has rows of one key on both sides: those before it are more than
the rows of larger keys, and fewer than those of keys at least as large. -/
def Separated (key : ρ → κ) (rows : List ρ) (size : Nat) : Prop :=
  ∃ row ∈ rows, ∃ k, (rows.countP fun r => key row < key r) < k * size ∧
    k * size < rows.countP fun r => key row ≤ key r

variable {key : ρ → κ} {rows l : List ρ} {size count : Nat} {p : ρ → Bool} {t : κ}

/-! ## Lists in descending order -/

theorem countP_eq_zero_of_not {a : ρ} (h : (a :: l).Pairwise fun a b => p b → p a)
    (ha : ¬ p a) : l.countP p = 0 := by
  rw [List.countP_eq_zero]
  intro b hb hpb
  exact ha (List.rel_of_pairwise_cons h hb hpb)

/-- What holds of a row holds of the rows before it, so it holds of the first ones. -/
theorem getElem_iff_lt_countP (h : l.Pairwise fun a b => p b → p a) :
    ∀ {i : Nat} (hi : i < l.length), p l[i] ↔ i < l.countP p := by
  induction l with
  | nil => intro i hi; cases hi
  | cons a l ih =>
      intro i hi
      by_cases ha : p a
      · rw [List.countP_cons_of_pos ha]
        cases i with
        | zero => exact ⟨fun _ => Nat.succ_pos _, fun _ => ha⟩
        | succ i =>
            rw [List.getElem_cons_succ, ih h.of_cons, Nat.add_lt_add_iff_right]
      · have hzero : l.countP p = 0 := countP_eq_zero_of_not h ha
        rw [List.countP_cons_of_neg ha, hzero]
        refine ⟨fun hpi => ?_, fun hlt => absurd hlt (Nat.not_lt_zero i)⟩
        cases i with
        | zero => exact absurd hpi ha
        | succ i =>
            exact absurd (List.rel_of_pairwise_cons h (List.getElem_mem _) hpi) ha

theorem filter_eq_take_countP (h : l.Pairwise fun a b => p b → p a) :
    l.filter p = l.take (l.countP p) := by
  induction l with
  | nil => rfl
  | cons a l ih =>
      by_cases ha : p a
      · rw [List.filter_cons_of_pos ha, List.countP_cons_of_pos ha, List.take_succ_cons,
          ih h.of_cons]
      · have hzero : l.countP p = 0 := countP_eq_zero_of_not h ha
        rw [List.filter_cons_of_neg ha, List.countP_cons_of_neg ha, hzero, List.take_zero,
          List.filter_eq_nil_iff]
        exact List.countP_eq_zero.mp hzero

theorem descending_le (h : l.Pairwise fun a b => key b ≤ key a) (t : κ) :
    l.Pairwise fun a b => decide (t ≤ key b) → decide (t ≤ key a) := by
  refine h.imp fun hab htb => ?_
  exact decide_eq_true (le_trans (of_decide_eq_true htb) hab)

theorem descending_lt (h : l.Pairwise fun a b => key b ≤ key a) (t : κ) :
    l.Pairwise fun a b => decide (t < key b) → decide (t < key a) := by
  refine h.imp fun hab htb => ?_
  exact decide_eq_true (lt_of_lt_of_le (of_decide_eq_true htb) hab)

/-! ## Two answers -/

/-- There is an answer. -/
def Answer.sorted (key : ρ → κ) (rows : List ρ) : Answer key rows where
  ordered := rows.insertionSort fun a b => key b ≤ key a
  perm := List.perm_insertionSort _ rows
  descending :=
    have : Std.Total fun a b : ρ => key b ≤ key a := ⟨fun a b => le_total (key b) (key a)⟩
    have : IsTrans ρ fun a b => key b ≤ key a := ⟨fun _ _ _ hab hbc => le_trans hbc hab⟩
    List.pairwise_insertionSort _ rows

theorem Answer.map_key_eq (a b : Answer key rows) : a.ordered.map key = b.ordered.map key := by
  have hperm : (a.ordered.map key).Perm (b.ordered.map key) := (a.perm.trans b.perm.symm).map key
  have hdescending : ∀ c : Answer key rows, (c.ordered.map key).Pairwise fun x y => y ≤ x :=
    fun c => List.pairwise_map.mpr c.descending
  refine hperm.eq_of_pairwise ?_ (hdescending a) (hdescending b)
  intro x y _ _ hyx hxy
  exact le_antisymm hxy hyx

theorem Answer.map_key_slice (a b : Answer key rows) (offset size : Nat) :
    (a.slice offset size).map key = (b.slice offset size).map key := by
  simp only [slice, List.map_take, List.map_drop, a.map_key_eq b]

theorem Answer.countP_eq (a : Answer key rows) (p : ρ → Bool) :
    a.ordered.countP p = rows.countP p := a.perm.countP_eq p

theorem Answer.length_eq (a : Answer key rows) : a.ordered.length = rows.length :=
  a.perm.length_eq

/-! ## The pages -/

theorem pages_succ (answers : Nat → Answer key rows) (size count : Nat) :
    pages answers size (count + 1) =
      pages answers size count ++ (answers count).slice (count * size) size := by
  simp [pages, List.range_succ]

theorem take_append_slice (a : Answer key rows) (size count : Nat) :
    a.ordered.take (count * size) ++ a.slice (count * size) size =
      a.ordered.take ((count + 1) * size) := by
  rw [Nat.succ_mul, List.take_add]
  rfl

/-- Pages of one answer. -/
theorem pages_const (a : Answer key rows) (size count : Nat) :
    pages (fun _ => a) size count = a.ordered.take (count * size) := by
  induction count with
  | zero => simp [pages]
  | succ count ih => rw [pages_succ, ih, take_append_slice]

theorem pages_map_key (answers : Nat → Answer key rows) (a : Answer key rows) (size count : Nat) :
    (pages answers size count).map key = (a.ordered.take (count * size)).map key := by
  induction count with
  | zero => simp [pages]
  | succ count ih =>
      rw [pages_succ, List.map_append, ih, (answers count).map_key_slice a, ← List.map_append,
        take_append_slice]

theorem pages_descending (answers : Nat → Answer key rows) (size count : Nat) :
    (pages answers size count).Pairwise fun a b => key b ≤ key a := by
  have h : ((pages answers size count).map key).Pairwise fun x y => y ≤ x := by
    rw [pages_map_key answers (answers 0)]
    exact List.pairwise_map.mpr ((answers 0).descending.sublist (List.take_sublist _ _))
  exact List.pairwise_map.mp h

/-! ## When they are the rows -/

/-- Before a boundary that separates nothing stand the same rows in every answer. -/
theorem take_perm (hsep : ¬ Separated key rows size) (a b : Answer key rows) (k : Nat) :
    (a.ordered.take (k * size)).Perm (b.ordered.take (k * size)) := by
  by_cases hend : rows.length ≤ k * size
  · rw [List.take_of_length_le (a.length_eq ▸ hend), List.take_of_length_le (b.length_eq ▸ hend)]
    exact a.perm.trans b.perm.symm
  rcases Nat.eq_zero_or_pos (k * size) with hzero | hpos
  · rw [hzero, List.take_zero, List.take_zero]
  have hlast : k * size - 1 < a.ordered.length := by
    rw [a.length_eq]
    omega
  generalize hrow : a.ordered[k * size - 1] = row
  have hmem : row ∈ rows := a.perm.mem_iff.mp (hrow ▸ List.getElem_mem hlast)
  -- the row before the boundary is not among the rows of larger keys
  have hlt : (rows.countP fun r => key row < key r) < k * size := by
    rw [← a.countP_eq]
    have hnot := (getElem_iff_lt_countP (descending_lt a.descending (key row)) hlast).not.mp
      (by simp [hrow])
    omega
  have hle : k * size ≤ rows.countP fun r => key row ≤ key r := by
    rw [← a.countP_eq]
    have hself := (getElem_iff_lt_countP (descending_le a.descending (key row)) hlast).mp
      (by simp [hrow])
    omega
  have hcount : (rows.countP fun r => key row ≤ key r) = k * size := by
    by_contra hne
    exact hsep ⟨row, hmem, k, hlt, Nat.lt_of_le_of_ne hle (Ne.symm hne)⟩
  have hfilter : ∀ c : Answer key rows,
      c.ordered.take (k * size) = c.ordered.filter fun r => key row ≤ key r := by
    intro c
    rw [filter_eq_take_countP (descending_le c.descending (key row)), c.countP_eq, hcount]
  rw [hfilter a, hfilter b]
  exact (a.perm.trans b.perm.symm).filter _

theorem slice_perm (hsep : ¬ Separated key rows size) (a b : Answer key rows) (k : Nat) :
    (a.slice (k * size) size).Perm (b.slice (k * size) size) := by
  have hboth : (a.ordered.take (k * size) ++ a.slice (k * size) size).Perm
      (b.ordered.take (k * size) ++ b.slice (k * size) size) := by
    rw [take_append_slice, take_append_slice]
    exact take_perm hsep a b (k + 1)
  have hsame : (a.ordered.take (k * size) ++ a.slice (k * size) size).Perm
      (a.ordered.take (k * size) ++ b.slice (k * size) size) :=
    hboth.trans ((take_perm hsep a b k).symm.append_right _)
  exact (List.perm_append_left_iff _).mp hsame

theorem pages_perm (hsep : ¬ Separated key rows size) (answers : Nat → Answer key rows)
    (hcount : rows.length ≤ count * size) : (pages answers size count).Perm rows := by
  have htake : ∀ n, (pages answers size n).Perm ((answers 0).ordered.take (n * size)) := by
    intro n
    induction n with
    | zero => simp [pages]
    | succ n ih =>
        rw [pages_succ, ← take_append_slice]
        exact ih.append (slice_perm hsep _ _ n)
  have hall : (answers 0).ordered.take (count * size) = (answers 0).ordered :=
    List.take_of_length_le ((answers 0).length_eq ▸ hcount)
  refine (htake count).trans ?_
  rw [hall]
  exact (answers 0).perm

/-- The same answer with two neighbours of one key in the other order. -/
theorem exists_swapped (a : Answer key rows) {n : Nat} (hn : n + 1 < a.ordered.length)
    (hkey : key a.ordered[n] = key a.ordered[n + 1]) :
    ∃ b : Answer key rows, b.ordered[n + 1]? = some a.ordered[n] := by
  obtain ⟨pre, post, hsplit, hlength⟩ : ∃ pre post,
      a.ordered = pre ++ a.ordered[n] :: a.ordered[n + 1] :: post ∧ pre.length = n := by
    refine ⟨a.ordered.take n, a.ordered.drop (n + 2), ?_, by simp; omega⟩
    rw [← List.drop_eq_getElem_cons hn, ← List.drop_eq_getElem_cons (Nat.lt_of_succ_lt hn),
      List.take_append_drop]
  generalize hx : a.ordered[n] = x at hsplit hkey
  generalize hy : a.ordered[n + 1] = y at hsplit hkey
  have hmap : (pre ++ y :: x :: post).map key = a.ordered.map key := by
    rw [hsplit]
    simp [hkey]
  refine ⟨⟨pre ++ y :: x :: post, ?_, ?_⟩, ?_⟩
  · refine List.Perm.trans ?_ (hsplit ▸ a.perm)
    exact (List.Perm.swap x y post).append_left pre
  · have hdescending : ((pre ++ y :: x :: post).map key).Pairwise fun x y => y ≤ x := by
      rw [hmap]
      exact List.pairwise_map.mpr a.descending
    exact List.pairwise_map.mp hdescending
  · simp [← hlength]

theorem pages_perm_iff (hnodup : rows.Nodup) (hsize : 0 < size)
    (hcount : rows.length ≤ count * size) :
    (∀ answers : Nat → Answer key rows, (pages answers size count).Perm rows) ↔
      ¬ Separated key rows size := by
  refine ⟨fun h hsep => ?_, fun h answers => pages_perm h answers hcount⟩
  obtain ⟨row, _, k, hlt, hle⟩ := hsep
  let a := Answer.sorted key rows
  have hlength : (rows.countP fun r => key row ≤ key r) ≤ a.ordered.length :=
    a.length_eq ▸ List.countP_le_length
  obtain ⟨n, hn⟩ : ∃ n, k * size = n + 1 := ⟨k * size - 1, by omega⟩
  have hn' : n + 1 < a.ordered.length := by omega
  have hkeys : ∀ i (hi : i < a.ordered.length), n ≤ i → i ≤ n + 1 → key a.ordered[i] = key row := by
    intro i hi hni hin
    have hge := (getElem_iff_lt_countP (descending_le a.descending (key row)) hi).mpr
      (by rw [a.countP_eq]; omega)
    have hgt := (getElem_iff_lt_countP (descending_lt a.descending (key row)) hi).not.mpr
      (by rw [a.countP_eq]; omega)
    exact le_antisymm (not_lt.mp fun hlt => hgt (decide_eq_true hlt)) (of_decide_eq_true hge)
  obtain ⟨b, hb⟩ := exists_swapped a hn' ((hkeys n (by omega) (by omega) (by omega)).trans
    (hkeys (n + 1) hn' (by omega) (by omega)).symm)
  -- the row before the boundary is read again when the database swaps it with the next one
  let answers : Nat → Answer key rows := fun i => if i = k then b else a
  have hk : k < count := by
    have hlt' : k * size < count * size := by
      have := a.length_eq
      omega
    exact Nat.lt_of_mul_lt_mul_right hlt'
  obtain ⟨j, rfl⟩ : ∃ j, k = j + 1 := by
    cases k with
    | zero => omega
    | succ j => exact ⟨j, rfl⟩
  have hsucc : (j + 1) * size = j * size + size := Nat.succ_mul j size
  have hfirst : a.ordered[n] ∈ (answers j).slice (j * size) size := by
    simp only [answers, if_neg (Nat.ne_of_lt (Nat.lt_succ_self j)), Answer.slice]
    refine List.mem_iff_getElem?.mpr ⟨n - j * size, ?_⟩
    rw [List.getElem?_take_of_lt (by omega), List.getElem?_drop,
      show j * size + (n - j * size) = n by omega]
    exact List.getElem?_eq_getElem _
  have hsecond : a.ordered[n] ∈ (answers (j + 1)).slice ((j + 1) * size) size := by
    simp only [answers, if_pos rfl, Answer.slice]
    refine List.mem_iff_getElem?.mpr ⟨0, ?_⟩
    rw [List.getElem?_take_of_lt hsize, List.getElem?_drop, Nat.add_zero, hn, hb]
  have hpages : (pages answers size count).Nodup := (h answers).nodup_iff.mpr hnodup
  have hdisjoint := List.pairwise_iff_getElem.mp (List.nodup_flatMap.mp hpages).2 j (j + 1)
    (by simp; omega) (by simpa using hk) (Nat.lt_succ_self j)
  simp only [Function.onFun, List.getElem_range] at hdisjoint
  exact hdisjoint hfirst hsecond

end Lib
