/-
# `Lib.Log` — lists that grow at the end

A log is a list that steps append to.  What is in it stays where it is (`getElem?_append_old`),
and an entry of a log with one more entry is the new one or an old one (`snoc_split`).
-/
import Mathlib.Data.List.Basic
import Mathlib.Logic.Relation
import Mathlib.Tactic.TypeStar

namespace Lib

variable {β : Type*} {l l' : List β} {e x : β} {pre post : List β} {n : Nat}

/-- Where an entry stands in a log that ends with another. -/
theorem snoc_split (h : l ++ [e] = pre ++ x :: post) :
    (pre = l ∧ x = e ∧ post = []) ∨ ∃ post', post = post' ++ [e] ∧ l = pre ++ x :: post' := by
  have hrev : e :: l.reverse = post.reverse ++ x :: pre.reverse := by
    simpa using congrArg List.reverse h
  cases hpost : post.reverse with
  | nil =>
      rw [hpost] at hrev
      obtain ⟨he, hl⟩ := List.cons.inj hrev
      exact .inl ⟨(List.reverse_inj.mp hl).symm, he.symm, List.reverse_eq_nil_iff.mp hpost⟩
  | cons y rest =>
      rw [hpost] at hrev
      obtain ⟨rfl, hl⟩ := List.cons.inj hrev
      exact .inr ⟨rest.reverse, by simpa using congrArg List.reverse hpost,
        by simpa using congrArg List.reverse hl⟩

theorem getElem?_append_old (h : l[n]? = some x) : (l ++ l')[n]? = some x := by
  rw [List.getElem?_append_left (List.getElem?_eq_some_iff.mp h).1, h]

theorem getElem?_snoc (h : (l ++ [e])[n]? = some x) :
    l[n]? = some x ∨ (n = l.length ∧ x = e) := by
  rcases Nat.lt_or_ge n l.length with hlt | hge
  · rw [List.getElem?_append_left hlt] at h
    exact .inl h
  · have hn := (List.getElem?_eq_some_iff.mp h).1
    simp only [List.length_append, List.length_singleton] at hn
    obtain rfl : n = l.length := Nat.le_antisymm (Nat.le_of_lt_succ hn) hge
    rw [List.getElem?_concat_length] at h
    exact .inr ⟨rfl, (Option.some.inj h).symm⟩

/-- The entry at a position, and what stands before and after it. -/
theorem split_at_getElem? (h : l[n]? = some x) :
    l = l.take n ++ x :: l.drop (n + 1) ∧ (l.take n).length = n := by
  obtain ⟨hlt, rfl⟩ := List.getElem?_eq_some_iff.mp h
  exact ⟨by simp, List.length_take_of_le (Nat.le_of_lt hlt)⟩

/-! ## What stands before an entry -/

/-- What stands before an entry of the log allows it there. -/
def Justified (P : List β → β → Prop) (l : List β) : Prop :=
  ∀ pre x post, l = pre ++ x :: post → P pre x

variable {P : List β → β → Prop}

theorem justified_nil : Justified P [] := by
  intro pre x post h
  cases pre <;> cases h

theorem justified_cons :
    Justified P (e :: l) ↔ P [] e ∧ Justified (fun pre => P (e :: pre)) l := by
  constructor
  · intro h
    refine ⟨h [] e l rfl, fun pre x post hl => h (e :: pre) x post ?_⟩
    rw [hl, List.cons_append]
  · rintro ⟨he, hl⟩ pre x post h
    cases pre with
    | nil =>
        cases h
        exact he
    | cons y pre =>
        obtain ⟨rfl, hrest⟩ := List.cons.inj h
        exact hl pre x post hrest

theorem justified_append :
    Justified P (l ++ l') ↔ Justified P l ∧ Justified (fun pre => P (l ++ pre)) l' := by
  induction l generalizing P with
  | nil => exact ⟨fun h => ⟨justified_nil, h⟩, fun h => h.2⟩
  | cons e l ih =>
      rw [List.cons_append, justified_cons, justified_cons, ih, and_assoc]
      rfl

theorem Justified.shorter (h : Justified P l') (hl : l <+: l') : Justified P l := by
  obtain ⟨rest, rfl⟩ := hl
  exact (justified_append.mp h).1

theorem Justified.and {Q : List β → β → Prop} (h : Justified P l) (h' : Justified Q l) :
    Justified (fun pre x => P pre x ∧ Q pre x) l :=
  fun pre x post hl => ⟨h pre x post hl, h' pre x post hl⟩

theorem Justified.left {Q : List β → β → Prop} (h : Justified (fun pre x => P pre x ∧ Q pre x) l) :
    Justified P l :=
  fun pre x post hl => (h pre x post hl).1

theorem justified_snoc (h : Justified P l) (he : P l e) : Justified P (l ++ [e]) := by
  rw [justified_append, justified_cons, List.append_nil]
  exact ⟨h, he, justified_nil⟩

/-! ## Where an entry comes from -/

/-- When an entry either takes something over from an earlier one or is the first to have it, all
that have it took it over from the first, one from the other. -/
theorem exists_origin {has : Nat → Prop} (takes : Nat → Nat → Prop)
    (h : ∀ n, has n → (∃ m < n, has m ∧ takes n m) ∨ ∀ m < n, ¬ has m) {n : Nat} (hn : has n) :
    ∃ k, has k ∧ ∀ n, has n →
      Relation.ReflTransGen (fun a b => takes a b ∧ has a ∧ has b) n k := by
  have hdown : ∀ n, has n → ∃ k, has k ∧ (∀ m < k, ¬ has m) ∧
      Relation.ReflTransGen (fun a b => takes a b ∧ has a ∧ has b) n k := by
    intro n
    induction n using Nat.strongRecOn with
    | ind n ih =>
        intro hn
        rcases h n hn with ⟨m, hlt, hm, htakes⟩ | hfirst
        · obtain ⟨k, hk, hfirst, hpath⟩ := ih m hlt hm
          exact ⟨k, hk, hfirst, hpath.head ⟨htakes, hn, hm⟩⟩
        · exact ⟨n, hn, hfirst, .refl⟩
  obtain ⟨k, hk, hfirst, -⟩ := hdown n hn
  refine ⟨k, hk, fun n hn => ?_⟩
  obtain ⟨k', hk', hfirst', hpath⟩ := hdown n hn
  have heq : k' = k := by
    rcases Nat.lt_trichotomy k' k with hlt | heq | hlt
    · exact absurd hk' (hfirst k' hlt)
    · exact heq
    · exact absurd hk (hfirst' k hlt)
  rw [← heq]
  exact hpath

end Lib
