/-
# `Lib.Regex` — regular expressions that are matched by backtracking

An expression is tried at a place, the character before it and what is left of the text, and
gives the places it can end at, the preferred first: a repetition is greedy, an alternative
before the one after it.  The match is the first of them.  What a backtracking matcher goes on to
try when the rest of an expression fails are the later ones, so that a sequence is the ends of the
second part at the ends of the first, in order.

`Substitution` replaces every match, as `re.sub` does, but for a part at its start that stays
(a group of the pattern that the replacement names).  It is told by what it keeps and what it cuts
out, `spans`, which `cut` carries out on any list: on a text, or on a text whose characters say
where they come from.

A body that is repeated must take a character.
-/
import Mathlib.Data.List.Basic
import Mathlib.Tactic.TypeStar

namespace Lib

/-- Between two characters of a text. -/
@[ext]
structure Place (α : Type*) where
  prev : Option α
  rest : List α

/-- The place after `i` characters of a text. -/
def Place.of {α : Type*} (t : List α) (i : Nat) : Place α := ⟨(t.take i).getLast?, t.drop i⟩

theorem Place.of_append {α : Type*} (a b : List α) :
    Place.of (a ++ b) a.length = ⟨a.getLast?, b⟩ := by
  rw [Place.of, List.take_left, List.drop_left]

/-- A regular expression. -/
inductive Regex (α : Type*)
  /-- a character of a class -/
  | one (p : α → Bool)
  /-- a condition on the characters before and after -/
  | assert (p : Option α → Option α → Bool)
  | seq (r s : Regex α)
  | alt (r s : Regex α)
  | star (r : Regex α)

namespace Regex

variable {α β : Type*}

/-- At most `fuel` rounds of `body`, as many as there can be first. -/
def rounds (body : Place α → List (Place α)) : Nat → Place α → List (Place α)
  | 0, l => [l]
  | fuel + 1, l => (body l).flatMap (rounds body fuel) ++ [l]

/-- The places where a match can end, the preferred first. -/
def run : Regex α → Place α → List (Place α)
  | .one _, ⟨_, []⟩ => []
  | .one p, ⟨_, c :: rest⟩ => if p c then [⟨some c, rest⟩] else []
  | .assert p, l => if p l.prev l.rest.head? then [l] else []
  | .seq r s, l => (r.run l).flatMap s.run
  | .alt r s, l => r.run l ++ s.run l
  | .star r, l => rounds r.run l.rest.length l

/-- A sequence of expressions. -/
def all : List (Regex α) → Regex α
  | [] => .assert fun _ _ => true
  | [r] => r
  | r :: rs => .seq r (all rs)

/-- The first of some expressions. -/
def any : List (Regex α) → Regex α
  | [] => .assert fun _ _ => false
  | [r] => r
  | r :: rs => .alt r (any rs)

/-- `r+` -/
def plus (r : Regex α) : Regex α := .seq r (.star r)

/-- `r{n}` -/
def times (n : Nat) (r : Regex α) : Regex α := all (List.replicate n r)

/-- The length of the match at a place. -/
def first (r : Regex α) (l : Place α) : Option Nat :=
  (r.run l).head?.map fun m => l.rest.length - m.rest.length

/-- Where the leftmost match starts, and its length. -/
def search (r : Regex α) : Option α → List α → Option (Nat × Nat)
  | prev, [] => (r.first ⟨prev, []⟩).map fun n => (0, n)
  | prev, c :: rest =>
      match r.first ⟨prev, c :: rest⟩ with
      | some n => some (0, n)
      | none => (r.search (some c) rest).map fun (offset, n) => (offset + 1, n)

variable {r s : Regex α} {l m : Place α} {w w' : List α}

/-! ## What a match takes -/

/-- A class of the expression has the character. -/
def Uses : Regex α → α → Prop
  | .one p, c => p c = true
  | .assert _, _ => False
  | .seq r s, c => r.Uses c ∨ s.Uses c
  | .alt r s, c => r.Uses c ∨ s.Uses c
  | .star r, c => r.Uses c

/-- From `l` to `m` only characters of the expression are taken. -/
def Over (r : Regex α) (l m : Place α) : Prop :=
  ∃ w, l.rest = w ++ m.rest ∧ ∀ c ∈ w, r.Uses c

theorem Over.refl : r.Over l l := ⟨[], rfl, fun _ h => (List.not_mem_nil h).elim⟩

theorem Over.trans {k : Place α} (h : r.Over l k) (h' : r.Over k m) : r.Over l m := by
  obtain ⟨w, hw, hall⟩ := h
  obtain ⟨w', hw', hall'⟩ := h'
  refine ⟨w ++ w', by rw [hw, hw', List.append_assoc], fun c hc => ?_⟩
  exact (List.mem_append.mp hc).elim (hall c) (hall' c)

theorem Over.mono (h : r.Over l m) (huses : ∀ c, r.Uses c → s.Uses c) : s.Over l m := by
  obtain ⟨w, hw, hall⟩ := h
  exact ⟨w, hw, fun c hc => huses c (hall c hc)⟩

theorem over_rounds {body : Place α → List (Place α)}
    (hbody : ∀ l, ∀ m ∈ body l, r.Over l m) : ∀ (fuel : Nat) (l : Place α),
    ∀ m ∈ rounds body fuel l, r.Over l m
  | 0, l, m, h => by
      rw [List.mem_singleton.mp h]
      exact .refl
  | fuel + 1, l, m, h => by
      rcases List.mem_append.mp h with h | h
      · obtain ⟨k, hk, hm⟩ := List.mem_flatMap.mp h
        exact (hbody l k hk).trans (over_rounds hbody fuel k m hm)
      · rw [List.mem_singleton.mp h]
        exact .refl

/-- A match takes characters of the expression. -/
theorem over_run (r : Regex α) : ∀ (l : Place α), ∀ m ∈ r.run l, r.Over l m := by
  induction r with
  | one p =>
      rintro ⟨prev, _ | ⟨c, rest⟩⟩ m h
      · cases h
      · by_cases hc : p c = true
        · rw [run, if_pos hc] at h
          rw [List.mem_singleton.mp h]
          exact ⟨[c], rfl, fun d hd => List.mem_singleton.mp hd ▸ hc⟩
        · rw [run, if_neg hc] at h
          cases h
  | assert p =>
      intro l m h
      rw [run] at h
      split at h
      case isTrue =>
        rw [List.mem_singleton.mp h]
        exact .refl
      case isFalse => cases h
  | seq r s ihr ihs =>
      intro l m h
      obtain ⟨k, hk, hm⟩ := List.mem_flatMap.mp h
      exact ((ihr l k hk).mono fun _ => Or.inl).trans ((ihs k m hm).mono fun _ => Or.inr)
  | alt r s ihr ihs =>
      intro l m h
      rcases List.mem_append.mp h with h | h
      · exact (ihr l m h).mono fun _ => Or.inl
      · exact (ihs l m h).mono fun _ => Or.inr
  | star r ih => exact fun l m h => over_rounds ih _ l m h

theorem uses_all {c : α} : ∀ {rs : List (Regex α)}, (all rs).Uses c → ∃ r ∈ rs, r.Uses c
  | [], h => h.elim
  | [r], h => ⟨r, List.mem_singleton.mpr rfl, h⟩
  | r :: s :: rs, h => by
      rcases h with h | h
      · exact ⟨r, List.mem_cons_self, h⟩
      · obtain ⟨r', hr', h'⟩ : ∃ r' ∈ s :: rs, r'.Uses c := uses_all h
        exact ⟨r', List.mem_cons_of_mem r hr', h'⟩

theorem uses_any {c : α} : ∀ {rs : List (Regex α)}, (any rs).Uses c → ∃ r ∈ rs, r.Uses c
  | [], h => h.elim
  | [r], h => ⟨r, List.mem_singleton.mpr rfl, h⟩
  | r :: s :: rs, h => by
      rcases h with h | h
      · exact ⟨r, List.mem_cons_self, h⟩
      · obtain ⟨r', hr', h'⟩ : ∃ r' ∈ s :: rs, r'.Uses c := uses_any h
        exact ⟨r', List.mem_cons_of_mem r hr', h'⟩

theorem mem_run_any {l m : Place α} : ∀ {rs : List (Regex α)}, m ∈ (any rs).run l →
    ∃ r ∈ rs, m ∈ r.run l
  | [], h => by
      rw [any, run] at h
      cases h
  | [r], h => ⟨r, List.mem_singleton.mpr rfl, h⟩
  | r :: s :: rs, h => by
      rcases List.mem_append.mp h with h | h
      · exact ⟨r, List.mem_cons_self, h⟩
      · obtain ⟨r', hr', h'⟩ : ∃ r' ∈ s :: rs, m ∈ r'.run l := mem_run_any h
        exact ⟨r', List.mem_cons_of_mem r hr', h'⟩

theorem mem_run_one {p : α → Bool} (h : m ∈ (one p).run l) :
    ∃ c, l.rest = c :: m.rest ∧ p c = true := by
  obtain ⟨prev, _ | ⟨c, rest⟩⟩ := l
  · cases h
  · by_cases hc : p c = true
    · rw [run, if_pos hc] at h
      rw [List.mem_singleton.mp h]
      exact ⟨c, rfl, hc⟩
    · rw [run, if_neg hc] at h
      cases h

theorem mem_run_assert {p : Option α → Option α → Bool} (h : m ∈ (assert p).run l) :
    m = l ∧ p l.prev l.rest.head? = true := by
  rw [run] at h
  split at h
  case isTrue hp => exact ⟨List.mem_singleton.mp h, hp⟩
  case isFalse => cases h

/-- Every match takes a character. -/
def Consumes : Regex α → Prop
  | .one _ => True
  | .assert _ => False
  | .seq r s => r.Consumes ∨ s.Consumes
  | .alt r s => r.Consumes ∧ s.Consumes
  | .star _ => False

theorem Over.length_le (h : r.Over l m) : m.rest.length ≤ l.rest.length := by
  obtain ⟨w, hw, -⟩ := h
  rw [hw, List.length_append]
  exact Nat.le_add_left _ _

theorem Consumes.length_lt : ∀ {r : Regex α} {l m : Place α}, r.Consumes → m ∈ r.run l →
    m.rest.length < l.rest.length
  | .one p, l, m, _, h => by
      obtain ⟨c, hc, -⟩ := mem_run_one h
      rw [hc]
      exact Nat.lt_succ_self _
  | .assert _, _, _, hr, _ => hr.elim
  | .seq r s, l, m, hr, h => by
      obtain ⟨k, hk, hm⟩ := List.mem_flatMap.mp h
      rcases hr with hr | hs
      · exact Nat.lt_of_le_of_lt (over_run s k m hm).length_le (hr.length_lt hk)
      · exact Nat.lt_of_lt_of_le (hs.length_lt hm) (over_run r l k hk).length_le
  | .alt r s, l, m, hr, h => by
      rcases List.mem_append.mp h with h | h
      · exact hr.1.length_lt h
      · exact hr.2.length_lt h
  | .star _, _, _, hr, _ => hr.elim

/-! ## What is matched -/

/-- The expression can take `w`, wherever it stands. -/
def Takes (r : Regex α) (w : List α) : Prop :=
  ∀ prev rest, ∃ m ∈ r.run ⟨prev, w ++ rest⟩, m.rest = rest

theorem takes_one {p : α → Bool} {c : α} (h : p c = true) : (one p).Takes [c] :=
  fun prev rest => ⟨⟨some c, rest⟩, by simp [run, h], rfl⟩

theorem Takes.seq (h : r.Takes w) (h' : s.Takes w') : (Regex.seq r s).Takes (w ++ w') := by
  intro prev rest
  obtain ⟨⟨prev', rest'⟩, hk, rfl⟩ := h prev (w' ++ rest)
  obtain ⟨m, hm, hrest⟩ := h' prev' rest
  rw [← List.append_assoc] at hk
  exact ⟨m, List.mem_flatMap.mpr ⟨_, hk, hm⟩, hrest⟩

theorem Takes.left (h : r.Takes w) : (Regex.alt r s).Takes w := by
  intro prev rest
  obtain ⟨m, hm, hrest⟩ := h prev rest
  exact ⟨m, List.mem_append_left _ hm, hrest⟩

theorem Takes.right (h : s.Takes w) : (Regex.alt r s).Takes w := by
  intro prev rest
  obtain ⟨m, hm, hrest⟩ := h prev rest
  exact ⟨m, List.mem_append_right _ hm, hrest⟩

theorem takes_any : ∀ {rs : List (Regex α)}, r ∈ rs → r.Takes w → (any rs).Takes w
  | [s], hr, h => List.mem_singleton.mp hr ▸ h
  | s :: s' :: rs, hr, h => by
      rcases List.mem_cons.mp hr with rfl | hr
      · exact h.left
      · exact (takes_any hr h).right

/-- One expression for each character. -/
theorem takes_all {κ : Type*} {f : κ → Regex α} : ∀ {ks : List κ} {cs : List α},
    List.Forall₂ (fun k c => (f k).Takes [c]) ks cs → (all (ks.map f)).Takes cs
  | [], [], _ => fun prev rest => ⟨⟨prev, rest⟩, by simp [all, run], rfl⟩
  | [k], [c], .cons h _ => h
  | k :: k' :: ks, c :: c' :: cs, .cons h hrest => h.seq (takes_all hrest)

theorem takes_rounds : ∀ {ws : List (List α)} {fuel : Nat} {prev : Option α} {rest : List α},
    ws.length ≤ fuel → (∀ w ∈ ws, r.Takes w) →
    ∃ m ∈ rounds r.run fuel ⟨prev, ws.flatten ++ rest⟩, m.rest = rest
  | [], 0, prev, rest, _, _ => ⟨⟨prev, rest⟩, List.mem_singleton.mpr rfl, rfl⟩
  | [], _ + 1, prev, rest, _, _ =>
      ⟨⟨prev, rest⟩, List.mem_append_right _ (List.mem_singleton.mpr rfl), rfl⟩
  | w :: ws, fuel + 1, prev, rest, hfuel, htakes => by
      obtain ⟨⟨prev', rest'⟩, hk, rfl⟩ := htakes w List.mem_cons_self prev (ws.flatten ++ rest)
      obtain ⟨m, hm, hrest⟩ : ∃ m ∈ rounds r.run fuel ⟨prev', ws.flatten ++ rest⟩, m.rest = rest :=
        takes_rounds (Nat.le_of_succ_le_succ hfuel) fun w' hw' =>
          htakes w' (List.mem_cons_of_mem w hw')
      rw [← List.append_assoc] at hk
      exact ⟨m, List.mem_append_left _ (List.mem_flatMap.mpr ⟨_, hk, hm⟩), hrest⟩

theorem takes_star {ws : List (List α)} (hne : [] ∉ ws) (htakes : ∀ w ∈ ws, r.Takes w) :
    (star r).Takes ws.flatten := by
  intro prev rest
  have hlength : ∀ vs : List (List α), [] ∉ vs → vs.length ≤ vs.flatten.length := by
    intro vs
    induction vs with
    | nil => exact fun _ => Nat.le_refl 0
    | cons v vs ih =>
        intro hvs
        rw [List.mem_cons, not_or] at hvs
        have hpos : 0 < v.length := List.length_pos_iff.mpr (Ne.symm hvs.1)
        have htail := ih hvs.2
        rw [List.flatten_cons, List.length_append, List.length_cons]
        omega
  have hfuel : ws.length ≤ (ws.flatten ++ rest).length := by
    rw [List.length_append]
    exact Nat.le_add_right_of_le (hlength ws hne)
  exact takes_rounds hfuel htakes

/-! ## The match that is preferred -/

/-- When all the ends are one place, that is the end of the match. -/
theorem first_eq {w rest : List α} (hl : l.rest = w ++ rest) (hm : ∃ m ∈ r.run l, m.rest = rest)
    (hall : ∀ m ∈ r.run l, m.rest = rest) : r.first l = some w.length := by
  rw [first]
  cases hrun : r.run l with
  | nil =>
      obtain ⟨m, hm, -⟩ := hm
      rw [hrun] at hm
      cases hm
  | cons m ms =>
      rw [hrun] at hall
      rw [List.head?_cons, Option.map_some, hall m List.mem_cons_self, hl, List.length_append,
        Nat.add_sub_cancel]

theorem first_eq_some {n : Nat} (h : r.first l = some n) :
    ∃ w, ∃ m ∈ r.run l, l.rest = w ++ m.rest ∧ w.length = n := by
  obtain ⟨m, hhead, rfl⟩ := Option.map_eq_some_iff.mp h
  have hm : m ∈ r.run l := List.mem_of_mem_head? hhead
  obtain ⟨w, hw, -⟩ := over_run r l m hm
  refine ⟨w, m, hm, hw, ?_⟩
  rw [hw, List.length_append, Nat.add_sub_cancel]

/-! ## The leftmost match -/

theorem getLast?_cons_or (c : α) (a : List α) (prev : Option α) :
    (c :: a).getLast?.or prev = a.getLast?.or (some c) := by
  rw [List.getLast?_cons]
  cases a.getLast? with
  | none => rfl
  | some d => rfl

theorem search_eq_some : ∀ {t : List α} {prev : Option α} {o n : Nat},
    r.search prev t = some (o, n) →
      ∃ a b, t = a ++ b ∧ a.length = o ∧ r.first ⟨a.getLast?.or prev, b⟩ = some n
  | [], prev, o, n, h => by
      obtain ⟨n', hn, heq⟩ := Option.map_eq_some_iff.mp h
      cases heq
      exact ⟨[], [], rfl, rfl, hn⟩
  | c :: rest, prev, o, n, h => by
      rw [search] at h
      split at h
      case h_1 n' hn =>
        cases h
        exact ⟨[], c :: rest, rfl, rfl, hn⟩
      case h_2 =>
        obtain ⟨⟨o', n'⟩, hrest, heq⟩ := Option.map_eq_some_iff.mp h
        cases heq
        obtain ⟨a, b, rfl, rfl, hfirst⟩ := search_eq_some hrest
        refine ⟨c :: a, b, rfl, rfl, ?_⟩
        rwa [getLast?_cons_or]

/-- No match starts before the one that is found. -/
theorem search_of_first : ∀ {a b : List α} {prev : Option α} {n : Nat},
    r.first ⟨a.getLast?.or prev, b⟩ = some n →
      ∃ o k, r.search prev (a ++ b) = some (o, k) ∧ o ≤ a.length
  | [], [], prev, n, h => ⟨0, n, by rw [List.nil_append, search]; exact h ▸ rfl, Nat.le_refl 0⟩
  | [], c :: b, prev, n, h => by
      have hfirst : r.first ⟨prev, c :: b⟩ = some n := h
      refine ⟨0, n, ?_, Nat.le_refl 0⟩
      rw [List.nil_append, search, hfirst]
  | c :: a, b, prev, n, h => by
      rw [getLast?_cons_or] at h
      obtain ⟨o, k, hsearch, hle⟩ := search_of_first h
      rw [List.cons_append, search]
      cases r.first ⟨prev, c :: (a ++ b)⟩ with
      | some n' => exact ⟨0, n', rfl, Nat.zero_le _⟩
      | none => exact ⟨o + 1, k, by rw [hsearch]; rfl, Nat.succ_le_succ hle⟩

end Regex

/-- A pattern to be replaced: the start of a match, which stays, and what is replaced. -/
structure Substitution (α : Type*) where
  kept : Regex α
  replaced : Regex α
  replacement : List α

namespace Substitution

variable {α β : Type*}

/-- The lengths of what a match at a place keeps and replaces. -/
def first (p : Substitution α) (l : Place α) : Option (Nat × Nat) :=
  ((p.kept.run l).flatMap fun k => (p.replaced.run k).map fun m =>
    (l.rest.length - k.rest.length, k.rest.length - m.rest.length)).head?

/-- One character more is kept before the next match. -/
def later : List (Nat × Nat) → List (Nat × Nat)
  | [] => []
  | (kept, replaced) :: spans => (kept + 1, replaced) :: spans

/-- How many characters are kept and then replaced, by turns; `skip` characters are of a match
that has been counted. -/
def spans (p : Substitution α) : Nat → Option α → List α → List (Nat × Nat)
  | _, _, [] => []
  | skip + 1, _, c :: rest => p.spans skip (some c) rest
  | 0, prev, c :: rest =>
      match p.first ⟨prev, c :: rest⟩ with
      | some (kept, replaced) => (kept, replaced) :: p.spans (kept + replaced - 1) (some c) rest
      | none => later (p.spans 0 (some c) rest)

/-- The pattern matches nowhere in the text. -/
def Absent (p : Substitution α) (t : List α) : Prop := ∀ i < t.length, p.first (.of t i) = none

instance (p : Substitution α) (t : List α) : Decidable (p.Absent t) :=
  inferInstanceAs (Decidable (∀ i < t.length, p.first (.of t i) = none))

theorem spans_append_of_absent {p : Substitution α} : ∀ {b a : List α}, p.Absent (a ++ b) →
    p.spans 0 a.getLast? b = []
  | [], _, _ => rfl
  | c :: b, a, h => by
      have hnone := h a.length (by simp)
      have hrest : p.spans 0 (a ++ [c]).getLast? b = [] :=
        spans_append_of_absent (by rwa [List.append_assoc])
      rw [Place.of_append] at hnone
      rw [List.getLast?_concat] at hrest
      rw [spans, hnone, hrest]
      rfl

/-- A text that the pattern does not match anywhere is left alone. -/
theorem spans_of_absent {p : Substitution α} {t : List α} (h : p.Absent t) :
    p.spans 0 none t = [] :=
  spans_append_of_absent (a := []) h

end Substitution

/-- A list with a mark for every span. -/
def cut {β : Type*} (mark : List β) : List (Nat × Nat) → List β → List β
  | [], t => t
  | (kept, replaced) :: spans, t =>
      t.take kept ++ (mark ++ cut mark spans (t.drop (kept + replaced)))

section

variable {β γ : Type*} {mark t w : List β}

theorem map_cut (f : β → γ) : ∀ (spans : List (Nat × Nat)) (t : List β),
    (cut mark spans t).map f = cut (mark.map f) spans (t.map f)
  | [], _ => rfl
  | (kept, replaced) :: spans, t => by
      rw [cut, cut, List.map_append, List.map_append, map_cut f spans, List.map_take,
        List.map_drop]

theorem mem_cut {x : β} : ∀ {spans : List (Nat × Nat)} {t : List β},
    x ∈ cut mark spans t → x ∈ t ∨ x ∈ mark
  | [], _, h => .inl h
  | (kept, replaced) :: spans, t, h => by
      rcases List.mem_append.mp h with h | h
      · exact .inl (List.mem_of_mem_take h)
      · rcases List.mem_append.mp h with h | h
        · exact .inr h
        · exact (mem_cut h).imp_left List.mem_of_mem_drop

/-- What a list has on both sides of a character it does not have is on one side. -/
theorem infix_of_not_mem {a b : List β} {x : β} (hx : x ∉ w) (h : w <:+: a ++ x :: b) :
    w <:+: a ∨ w <:+: b := by
  have hstart : ∀ {a : List β}, w <+: a ++ x :: b → w <+: a := by
    intro a hpre
    have ha : a <+: a ++ x :: b := List.prefix_append a _
    rcases Nat.lt_or_ge a.length w.length with hlt | hle
    · have hax : a ++ [x] <+: w := by
        refine List.prefix_of_prefix_length_le (List.prefix_append_right_inj a |>.mpr
          (List.prefix_append [x] b)) hpre ?_
        rwa [List.length_append, List.length_singleton]
      exact absurd (hax.subset (List.mem_append_right a (List.mem_singleton.mpr rfl))) hx
    · exact List.prefix_of_prefix_length_le hpre ha hle
  induction a with
  | nil =>
      rcases List.infix_cons_iff.mp h with hpre | hinf
      · exact .inl (hstart (a := []) hpre).isInfix
      · exact .inr hinf
  | cons y a ih =>
      rcases List.infix_cons_iff.mp h with hpre | hinf
      · exact .inl (hstart (a := y :: a) hpre).isInfix
      · exact (ih hinf).imp_left fun hin => List.infix_cons_iff.mpr (.inr hin)

theorem infix_of_forall_not_mem {b : List β} : ∀ {ys : List β}, (∀ y ∈ ys, y ∉ w) →
    w <:+: ys ++ b → w <:+: b
  | [], _, h => h
  | y :: ys, hys, h => by
      rcases infix_of_not_mem (a := []) (hys y List.mem_cons_self) h with hnil | hrest
      · rw [List.infix_nil.mp hnil]
        exact List.nil_infix
      · exact infix_of_forall_not_mem (fun y' hy' => hys y' (List.mem_cons_of_mem y hy')) hrest

/-- What has no character of a mark is on one side of it. -/
theorem infix_of_marked {a b : List β} (hmark : mark ≠ []) (hw : ∀ x ∈ mark, x ∉ w)
    (h : w <:+: a ++ (mark ++ b)) : w <:+: a ∨ w <:+: b := by
  obtain ⟨x, xs, rfl⟩ := List.exists_cons_of_ne_nil hmark
  rcases infix_of_not_mem (hw x List.mem_cons_self) h with h | h
  · exact .inl h
  · exact .inr (infix_of_forall_not_mem (fun y hy => hw y (List.mem_cons_of_mem x hy)) h)

/-- What is in a list between two marks was in it before. -/
theorem infix_cut (hmark : mark ≠ []) (hw : ∀ x ∈ mark, x ∉ w) :
    ∀ {spans : List (Nat × Nat)} {t : List β}, w <:+: cut mark spans t → w <:+: t
  | [], _, h => h
  | (kept, replaced) :: spans, t, h => by
      rcases infix_of_marked hmark hw h with h | h
      · exact h.trans (List.take_prefix kept t).isInfix
      · exact (infix_cut hmark hw h).trans (List.drop_suffix _ t).isInfix

end

end Lib
