/-
# `Lib.GroupMax` — of every group of rows the one of greatest rank

`DELETE FROM t WHERE rank NOT IN (SELECT MAX(rank) FROM t GROUP BY group)` over rows of any
type.  With distinct ranks, as a primary key has, exactly one row of every group is left
(`mem_keepGroupMaxima`, `exists_greatest`, `nodup_keepGroupMaxima`), and where every group has
one row nothing is deleted (`keepGroupMaxima_eq_self`).
-/
import Mathlib.Data.List.Nodup
import Mathlib.Order.Lattice
import Mathlib.Tactic.TypeStar

namespace Lib

section

variable {α κ ρ : Type*} [DecidableEq κ] [LinearOrder ρ] {group : α → κ} {rank : α → ρ}

/-- `SELECT MAX(rank) FROM rows GROUP BY group`: the ranks of the rows that none of their
group exceeds. -/
def groupMaxima (group : α → κ) (rank : α → ρ) (rows : List α) : List ρ :=
  (rows.filter fun r => rows.all fun s => group s = group r → rank s ≤ rank r).map rank

/-- `DELETE FROM rows WHERE rank NOT IN (SELECT MAX(rank) FROM rows GROUP BY group)` -/
def keepGroupMaxima (group : α → κ) (rank : α → ρ) (rows : List α) : List α :=
  rows.filter fun r => rank r ∈ groupMaxima group rank rows

variable {rows : List α} {r s : α}

theorem mem_groupMaxima {m : ρ} : m ∈ groupMaxima group rank rows ↔
    ∃ r ∈ rows, rank r = m ∧ ∀ s ∈ rows, group s = group r → rank s ≤ rank r := by
  simp only [groupMaxima, List.mem_map, List.mem_filter, List.all_eq_true, decide_eq_true_eq]
  constructor
  · rintro ⟨r, ⟨hr, hmax⟩, hm⟩
    exact ⟨r, hr, hm, hmax⟩
  · rintro ⟨r, hr, hm, hmax⟩
    exact ⟨r, ⟨hr, hmax⟩, hm⟩

/-- A row is left when none of its group has a greater rank. -/
theorem mem_keepGroupMaxima (hranks : (rows.map rank).Nodup) :
    r ∈ keepGroupMaxima group rank rows ↔
      r ∈ rows ∧ ∀ s ∈ rows, group s = group r → rank s ≤ rank r := by
  simp only [keepGroupMaxima, List.mem_filter, decide_eq_true_eq, mem_groupMaxima]
  constructor
  · rintro ⟨hr, s, hs, hrank, hmax⟩
    cases List.inj_on_of_nodup_map hranks hs hr hrank
    exact ⟨hr, hmax⟩
  · rintro ⟨hr, hmax⟩
    exact ⟨hr, r, hr, rfl, hmax⟩

theorem keepGroupMaxima_sublist : (keepGroupMaxima group rank rows).Sublist rows :=
  List.filter_sublist

/-- Among some rows one has the greatest rank. -/
theorem exists_rank_max : ∀ {rows : List α}, rows ≠ [] → ∃ r ∈ rows, ∀ s ∈ rows, rank s ≤ rank r
  | [], h => absurd rfl h
  | [r], _ => ⟨r, List.mem_cons_self, fun s hs => by rw [List.mem_singleton.mp hs]⟩
  | r :: r' :: rest, _ => by
      obtain ⟨best, hbest, hmax⟩ := exists_rank_max (List.cons_ne_nil r' rest)
      obtain hle | hlt := le_total (rank r) (rank best)
      · refine ⟨best, List.mem_cons_of_mem r hbest, fun s hs => ?_⟩
        obtain rfl | hs := List.mem_cons.mp hs
        · exact hle
        · exact hmax s hs
      · refine ⟨r, List.mem_cons_self, fun s hs => ?_⟩
        obtain rfl | hs := List.mem_cons.mp hs
        · exact le_refl _
        · exact le_trans (hmax s hs) hlt

/-- Every group keeps a row. -/
theorem exists_greatest (hranks : (rows.map rank).Nodup) (hr : r ∈ rows) :
    ∃ s ∈ keepGroupMaxima group rank rows, group s = group r := by
  have hne : rows.filter (fun s => group s = group r) ≠ [] :=
    List.ne_nil_of_mem (List.mem_filter.mpr ⟨hr, decide_eq_true rfl⟩)
  obtain ⟨s, hs, hmax⟩ : ∃ s ∈ rows.filter fun s => group s = group r,
      ∀ t ∈ rows.filter fun s => group s = group r, rank t ≤ rank s := exists_rank_max hne
  obtain ⟨hs, hgroup⟩ := List.mem_filter.mp hs
  have hgroup : group s = group r := of_decide_eq_true hgroup
  refine ⟨s, (mem_keepGroupMaxima hranks).mpr ⟨hs, fun t ht htgroup => ?_⟩, hgroup⟩
  exact hmax t (List.mem_filter.mpr ⟨ht, decide_eq_true (htgroup.trans hgroup)⟩)

/-- And only one. -/
theorem keepGroupMaxima_unique (hranks : (rows.map rank).Nodup)
    (hr : r ∈ keepGroupMaxima group rank rows) (hs : s ∈ keepGroupMaxima group rank rows)
    (hgroup : group s = group r) : s = r := by
  obtain ⟨hr, hrmax⟩ := (mem_keepGroupMaxima hranks).mp hr
  obtain ⟨hs, hsmax⟩ := (mem_keepGroupMaxima hranks).mp hs
  exact List.inj_on_of_nodup_map hranks hs hr
    (le_antisymm (hrmax s hs hgroup) (hsmax r hr hgroup.symm))

theorem nodup_keepGroupMaxima (hranks : (rows.map rank).Nodup) :
    ((keepGroupMaxima group rank rows).map group).Nodup := by
  have hnodup : (keepGroupMaxima group rank rows).Nodup :=
    (List.Nodup.of_map rank hranks).sublist keepGroupMaxima_sublist
  exact (List.nodup_map_iff_inj_on hnodup).mpr fun r hr s hs hgroup =>
    keepGroupMaxima_unique hranks hs hr hgroup

/-- A list without repetition of copies of one element. -/
theorem eq_singleton_of_nodup {l : List α} {a : α} (hnodup : l.Nodup) (ha : a ∈ l)
    (honly : ∀ b ∈ l, b = a) : l = [a] := by
  match l, hnodup with
  | [b], _ => rw [honly b List.mem_cons_self]
  | b :: c :: rest, hnodup =>
      have hb : b = a := honly b List.mem_cons_self
      have hc : c = a := honly c (List.mem_cons_of_mem b List.mem_cons_self)
      rw [hb, hc] at hnodup
      exact absurd List.mem_cons_self (List.nodup_cons.mp hnodup).1

/-- Where every group has one row, no row is deleted. -/
theorem keepGroupMaxima_eq_self (hgroups : (rows.map group).Nodup) :
    keepGroupMaxima group rank rows = rows := by
  refine List.filter_eq_self.mpr fun r hr => decide_eq_true (mem_groupMaxima.mpr ?_)
  refine ⟨r, hr, rfl, fun s hs hgroup => ?_⟩
  rw [List.inj_on_of_nodup_map hgroups hs hr hgroup]

end

end Lib
