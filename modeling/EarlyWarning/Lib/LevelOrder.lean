/-
# `Lib.LevelOrder` — the nodes of a tree, one level after another

The walk with a queue: take the first node, put its children at the end.  The address of a node is
the list of places on the way to it, and the walk visits the addresses in the order by length
first (`addressed_pairwise`): a node of the queue comes before the nodes whose parent comes before
the parent of that node, and so do all that are put behind it.

So a search of the walk finds the first node in that order (`findSome?_breadthFirst`), and one
that finds nothing has seen every node (`mem_breadthFirst`).
-/
import Mathlib.Data.List.Shortlex

namespace Lib

inductive Rose (α : Type*)
  | node (value : α) (children : List (Rose α))

namespace Rose

variable {α β : Type*}

def value : Rose α → α
  | node value _ => value

def children : Rose α → List (Rose α)
  | node _ children => children

/-- The node at an address. -/
def at? (t : Rose α) : List ℕ → Option (Rose α)
  | [] => some t
  | i :: path => t.children[i]?.bind fun child => child.at? path

theorem sum_sizeOf_le : ∀ children : List (Rose α), (children.map sizeOf).sum ≤ sizeOf children
  | [] => Nat.zero_le _
  | child :: rest => by
      have hrest := sum_sizeOf_le rest
      simp only [List.map_cons, List.sum_cons, List.cons.sizeOf_spec]
      omega

theorem sum_sizeOf_children (t : Rose α) : (t.children.map sizeOf).sum < sizeOf t := by
  cases t with
  | node value children =>
      have hle := sum_sizeOf_le children
      show (children.map sizeOf).sum < sizeOf (node value children)
      rw [node.sizeOf_spec]
      omega

/-- The walk from a queue on. -/
def breadthFirst : List (Rose α) → List (Rose α)
  | [] => []
  | t :: queue => t :: breadthFirst (queue ++ t.children)
termination_by queue => (queue.map sizeOf).sum
decreasing_by
  have hless := sum_sizeOf_children t
  simp only [List.map_append, List.sum_append, List.map_cons, List.sum_cons]
  omega

/-- The children of the node at an address, with theirs. -/
def places (path : List ℕ) (t : Rose α) : List (List ℕ × Rose α) :=
  t.children.zipIdx.map fun child => (path ++ [child.2], child.1)

theorem map_snd_places (path : List ℕ) (t : Rose α) :
    (places path t).map Prod.snd = t.children := by
  rw [places, List.map_map]
  exact List.zipIdx_map_fst 0 t.children

/-- The walk, with the addresses. -/
def addressed : List (List ℕ × Rose α) → List (List ℕ × Rose α)
  | [] => []
  | x :: queue => x :: addressed (queue ++ places x.1 x.2)
termination_by queue => ((queue.map Prod.snd).map sizeOf).sum
decreasing_by
  have hless := sum_sizeOf_children x.2
  simp only [List.map_append, List.sum_append, List.map_cons, List.sum_cons, map_snd_places]
  omega

theorem map_snd_addressed (queue : List (List ℕ × Rose α)) :
    (addressed queue).map Prod.snd = breadthFirst (queue.map Prod.snd) := by
  induction queue using addressed.induct with
  | case1 => simp [addressed, breadthFirst]
  | case2 x queue ih =>
      rw [addressed, List.map_cons, ih, List.map_cons, breadthFirst, List.map_append,
        map_snd_places]

theorem mem_places {path : List ℕ} {t : Rose α} {y : List ℕ × Rose α} :
    y ∈ places path t ↔ ∃ i, y.1 = path ++ [i] ∧ t.children[i]? = some y.2 := by
  rw [places, List.mem_map]
  constructor
  · rintro ⟨⟨child, i⟩, hchild, rfl⟩
    exact ⟨i, rfl, List.mem_zipIdx_iff_getElem?.mp hchild⟩
  · rintro ⟨i, hpath, hchild⟩
    exact ⟨(y.2, i), List.mem_zipIdx_iff_getElem?.mpr hchild, Prod.ext hpath.symm rfl⟩

/-- The walk visits the nodes below those of the queue. -/
theorem mem_addressed {queue : List (List ℕ × Rose α)} {x : List ℕ × Rose α} :
    x ∈ addressed queue ↔
      ∃ y ∈ queue, ∃ path, x.1 = y.1 ++ path ∧ y.2.at? path = some x.2 := by
  induction queue using addressed.induct with
  | case1 => simp [addressed]
  | case2 first queue ih =>
      rw [addressed, List.mem_cons, ih]
      constructor
      · rintro (rfl | ⟨y, hy, path, hpath, hat⟩)
        · exact ⟨x, List.mem_cons_self, [], (List.append_nil _).symm, rfl⟩
        · rcases List.mem_append.mp hy with hqueue | hplace
          · exact ⟨y, List.mem_cons_of_mem _ hqueue, path, hpath, hat⟩
          · obtain ⟨i, hi, hchild⟩ := mem_places.mp hplace
            refine ⟨first, List.mem_cons_self, i :: path, ?_, ?_⟩
            · rw [hpath, hi, List.append_assoc, List.singleton_append]
            · rw [at?, hchild, Option.bind_some, hat]
      · rintro ⟨y, hy, path, hpath, hat⟩
        rcases List.mem_cons.mp hy with rfl | hqueue
        · cases path with
          | nil =>
              rw [List.append_nil] at hpath
              exact .inl (Prod.ext hpath (Option.some.inj hat).symm)
          | cons i path =>
              obtain ⟨child, hchild, hbelow⟩ := Option.bind_eq_some_iff.mp hat
              refine .inr ⟨(y.1 ++ [i], child), List.mem_append_right _ ?_, path, ?_, hbelow⟩
              · exact mem_places.mpr ⟨i, rfl, hchild⟩
              · rw [hpath, List.append_assoc, List.singleton_append]
        · exact .inr ⟨y, List.mem_append_left _ hqueue, path, hpath, hat⟩

/-- The walk from the root visits every node. -/
theorem mem_breadthFirst {t u : Rose α} :
    u ∈ breadthFirst [t] ↔ ∃ path, t.at? path = some u := by
  have hwalk : breadthFirst [t] = (addressed [([], t)]).map Prod.snd :=
    (map_snd_addressed [([], t)]).symm
  rw [hwalk, List.mem_map]
  constructor
  · rintro ⟨x, hx, rfl⟩
    obtain ⟨y, hy, path, -, hat⟩ := mem_addressed.mp hx
    rw [List.mem_singleton.mp hy] at hat
    exact ⟨path, hat⟩
  · rintro ⟨path, hat⟩
    exact ⟨(path, u), mem_addressed.mpr ⟨([], t), List.mem_singleton_self _, path, rfl, hat⟩, rfl⟩

/-! ## The order of the walk -/

/-- The shorter address first, and of two of one length the one that is less. -/
def Before : List ℕ → List ℕ → Prop := List.Shortlex (· < ·)

theorem Before.irrefl (path : List ℕ) : ¬ Before path path :=
  fun h => Std.Asymm.asymm (r := List.Shortlex (· < ·)) _ _ h h

theorem before_snoc (path : List ℕ) (i : ℕ) : Before path (path ++ [i]) :=
  .of_length_lt (by rw [List.length_append]; exact Nat.lt_succ_self _)

theorem lex_append {s t : List ℕ} (h : List.Lex (· < ·) s t) (hlength : s.length = t.length)
    (a b : List ℕ) : List.Lex (· < ·) (s ++ a) (t ++ b) := by
  induction h with
  | nil => cases hlength
  | cons _ ih => exact .cons (ih (Nat.succ.inj hlength))
  | rel hlt => exact .rel hlt

/-- The children of a node that comes before come before. -/
theorem Before.snoc {p q : List ℕ} (h : Before p q) (i j : ℕ) :
    Before (p ++ [i]) (q ++ [j]) := by
  rcases List.shortlex_def.mp h with hshorter | ⟨hlength, hlex⟩
  · refine .of_length_lt ?_
    rw [List.length_append, List.length_append]
    exact Nat.add_lt_add_right hshorter 1
  · refine .of_lex ?_ (lex_append hlex hlength _ _)
    rw [List.length_append, List.length_append, hlength]
    rfl

/-- The queue is in order, and the parents of its nodes come before all of it. -/
structure Queued (queue : List (List ℕ × Rose α)) : Prop where
  pairwise : queue.Pairwise fun x y => Before x.1 y.1
  parents : ∀ x ∈ queue, ∀ y ∈ queue, ∀ path i, x.1 = path ++ [i] → Before path y.1

theorem pairwise_places (path : List ℕ) (t : Rose α) :
    (places path t).Pairwise fun x y => Before x.1 y.1 := by
  rw [places, List.pairwise_map, List.pairwise_iff_getElem]
  intro i j hi hj hij
  simp only [List.getElem_zipIdx, Nat.zero_add]
  exact .append_left ((List.shortlex_singleton_iff i j).mpr hij) path

theorem Queued.next {first : List ℕ × Rose α} {queue : List (List ℕ × Rose α)}
    (h : Queued (first :: queue)) : Queued (queue ++ places first.1 first.2) := by
  obtain ⟨hfirst, hqueue⟩ := List.pairwise_cons.mp h.pairwise
  have hparent : ∀ x ∈ queue, ∀ path i, x.1 = path ++ [i] → Before path first.1 :=
    fun x hx => h.parents x (List.mem_cons_of_mem _ hx) first List.mem_cons_self
  refine ⟨List.pairwise_append.mpr ⟨hqueue, pairwise_places _ _, ?_⟩, ?_⟩
  · intro x hx y hy
    obtain ⟨j, hj, -⟩ := mem_places.mp hy
    rw [hj]
    rcases List.eq_nil_or_concat x.1 with hroot | ⟨path, i, hi⟩
    · rw [hroot]
      refine .of_length_lt ?_
      rw [List.length_append]
      exact Nat.succ_pos _
    · rw [List.concat_eq_append] at hi
      rw [hi]
      exact (hparent x hx path i hi).snoc i j
  · intro x hx y hy path i hi
    rcases List.mem_append.mp hx with hold | hplace
    · rcases List.mem_append.mp hy with hold' | hplace'
      · exact h.parents x (List.mem_cons_of_mem _ hold) y (List.mem_cons_of_mem _ hold') path i hi
      · obtain ⟨j, hj, -⟩ := mem_places.mp hplace'
        rw [hj]
        exact .append_right [j] (hparent x hold path i hi)
    · obtain ⟨k, hk, -⟩ := mem_places.mp hplace
      have hsame : first.1 = path := (List.append_inj' (hk.symm.trans hi) rfl).1
      rw [← hsame]
      rcases List.mem_append.mp hy with hold' | hplace'
      · exact hfirst y hold'
      · obtain ⟨j, hj, -⟩ := mem_places.mp hplace'
        rw [hj]
        exact before_snoc _ j

theorem Queued.addressed {queue : List (List ℕ × Rose α)} (h : Queued queue) :
    (addressed queue).Pairwise fun x y => Before x.1 y.1 := by
  induction queue using addressed.induct with
  | case1 => simp [Rose.addressed]
  | case2 first queue ih =>
      rw [Rose.addressed, List.pairwise_cons]
      refine ⟨fun x hx => ?_, ih h.next⟩
      obtain ⟨y, hy, path, hpath, -⟩ := mem_addressed.mp hx
      rw [hpath]
      refine .append_right path ?_
      rcases List.mem_append.mp hy with hqueue | hplace
      · exact (List.pairwise_cons.mp h.pairwise).1 y hqueue
      · obtain ⟨j, hj, -⟩ := mem_places.mp hplace
        rw [hj]
        exact before_snoc _ j

/-- **The order of the walk** from the root. -/
theorem addressed_pairwise (t : Rose α) :
    (addressed [([], t)]).Pairwise fun x y => Before x.1 y.1 := by
  refine Queued.addressed ⟨List.pairwise_singleton _ _, ?_⟩
  intro x hx _ _ path i hi
  rw [List.mem_singleton.mp hx] at hi
  exact absurd hi.symm (List.append_ne_nil_of_right_ne_nil _ (List.cons_ne_nil _ _))

variable {f : Rose α → Option β} {t : Rose α} {b : β}

theorem findSome?_addressed : (breadthFirst [t]).findSome? f =
    (addressed [([], t)]).findSome? fun x => f x.2 := by
  have hwalk : breadthFirst [t] = (addressed [([], t)]).map Prod.snd :=
    (map_snd_addressed [([], t)]).symm
  rw [hwalk, List.findSome?_map]
  rfl

theorem mem_walk {path : List ℕ} {u : Rose α} (h : t.at? path = some u) :
    (path, u) ∈ addressed [([], t)] :=
  mem_addressed.mpr ⟨([], t), List.mem_singleton_self _, path, rfl, h⟩

/-- The node that a search finds. -/
theorem exists_first (h : (breadthFirst [t]).findSome? f = some b) :
    ∃ path u, t.at? path = some u ∧ f u = some b ∧
      ∀ path' u', Before path' path → t.at? path' = some u' → f u' = none := by
  rw [findSome?_addressed] at h
  obtain ⟨earlier, x, later, hwalk, hfound, hnone⟩ := List.findSome?_eq_some_iff.mp h
  have hx : x ∈ addressed [([], t)] := by
    rw [hwalk]
    exact List.mem_append_right _ List.mem_cons_self
  obtain ⟨y, hy, path, hpath, hat⟩ := mem_addressed.mp hx
  rw [List.mem_singleton.mp hy] at hpath hat
  refine ⟨path, x.2, hat, hfound, fun path' u' hbefore hat' => ?_⟩
  have hpairwise := addressed_pairwise t
  have hmem := mem_walk hat'
  rw [hwalk] at hpairwise hmem
  have hlater := (List.pairwise_cons.mp (List.pairwise_append.mp hpairwise).2.1).1
  rcases List.mem_append.mp hmem with hearlier | hrest
  · exact hnone _ hearlier
  · have hxpath : x.1 = path := hpath
    rcases List.mem_cons.mp hrest with hsame | hafter
    · rw [← hxpath, ← hsame] at hbefore
      exact absurd hbefore (Before.irrefl _)
    · have hback : Before path path' := hxpath ▸ hlater _ hafter
      exact absurd hbefore (Std.Asymm.asymm (r := List.Shortlex (· < ·)) _ _ hback)

/-- **A search finds the first node** in the order of the walk. -/
theorem findSome?_breadthFirst : (breadthFirst [t]).findSome? f = some b ↔
    ∃ path u, t.at? path = some u ∧ f u = some b ∧
      ∀ path' u', Before path' path → t.at? path' = some u' → f u' = none := by
  refine ⟨exists_first, ?_⟩
  rintro ⟨path, u, hat, hfound, hnone⟩
  cases hsearch : (breadthFirst [t]).findSome? f with
  | none =>
      have hu := List.findSome?_eq_none_iff.mp hsearch u (mem_breadthFirst.mpr ⟨path, hat⟩)
      rw [hfound] at hu
      cases hu
  | some c =>
      obtain ⟨path', u', hat', hfound', hnone'⟩ := exists_first hsearch
      rcases Std.Trichotomous.rel_or_eq_or_rel_swap (r := List.Shortlex (· < ·)) (a := path)
        (b := path') with hbefore | rfl | hafter
      · rw [hnone' path u hbefore hat] at hfound
        cases hfound
      · rw [hat] at hat'
        cases hat'
        exact hfound'.symm.trans hfound
      · rw [hnone path' u' hafter hat'] at hfound'
        cases hfound'

theorem findSome?_breadthFirst_eq_none : (breadthFirst [t]).findSome? f = none ↔
    ∀ path u, t.at? path = some u → f u = none := by
  rw [List.findSome?_eq_none_iff]
  constructor
  · intro h path u hat
    exact h u (mem_breadthFirst.mpr ⟨path, hat⟩)
  · intro h u hu
    obtain ⟨path, hat⟩ := mem_breadthFirst.mp hu
    exact h path u hat

end Rose

end Lib
