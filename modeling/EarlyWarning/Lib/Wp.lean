/-
# `Lib.Wp` — preconditions for programs with state and exceptions

A program is `ExceptT ε (StateM σ) α`: it reads and writes a state and may raise,
and a raised exception keeps the state it was raised in — which is how a `try`
around database work behaves in the languages this models.

`wp m Q E s` says what a run of `m` from `s` ends in: `Q a t` when it returns `a` in
state `t`, `E e t` when it raises `e` in state `t`.  The rules are equations, so a
program written with `do` is executed symbolically by rewriting with them; a
called function is replaced by its own specification with `wp_mono`.
-/
import Mathlib.Data.List.Forall2
import Mathlib.Tactic.TypeStar

namespace Lib

/-- A program over states `σ` that may raise an `ε`. -/
abbrev Prog (σ ε α : Type) : Type := ExceptT ε (StateM σ) α

section

variable {σ ε α β : Type}

/-- Run a program: its outcome and the state it ends in. -/
def exec (m : Prog σ ε α) (s : σ) : Except ε α × σ := m.run s

/-- What a run of `m` from `s` must end in. -/
def wp (m : Prog σ ε α) (Q : α → σ → Prop) (E : ε → σ → Prop) (s : σ) : Prop :=
  match exec m s with
  | (.ok a, t) => Q a t
  | (.error e, t) => E e t

variable {Q Q' : α → σ → Prop} {E E' : ε → σ → Prop} {s t : σ}

/-! ## The rules of the language -/

@[simp] theorem wp_pure (a : α) : wp (pure a : Prog σ ε α) Q E s = Q a s := rfl

@[simp] theorem wp_throw (e : ε) : wp (throw e : Prog σ ε α) Q E s = E e s := rfl

@[simp] theorem wp_get {Q : σ → σ → Prop} : wp (get : Prog σ ε σ) Q E s = Q s s := rfl

@[simp] theorem wp_set {Q : PUnit → σ → Prop} (t : σ) :
    wp (set t : Prog σ ε PUnit) Q E s = Q ⟨⟩ t := rfl

@[simp] theorem wp_modify {Q : PUnit → σ → Prop} (f : σ → σ) :
    wp (modify f : Prog σ ε PUnit) Q E s = Q ⟨⟩ (f s) := rfl

theorem exec_bind (m : Prog σ ε α) (f : α → Prog σ ε β) :
    exec (m >>= f) s = match exec m s with
      | (.ok a, t) => exec (f a) t
      | (.error e, t) => (.error e, t) := by
  unfold exec ExceptT.run
  simp only [bind, ExceptT.bind, ExceptT.mk, StateT.bind, ExceptT.bindCont]
  rcases m s with ⟨_ | _, _⟩ <;> rfl

@[simp] theorem wp_bind (m : Prog σ ε α) (f : α → Prog σ ε β) {Q : β → σ → Prop} :
    wp (m >>= f) Q E s = wp m (fun a => wp (f a) Q E) E s := by
  unfold wp
  rw [exec_bind]
  rcases exec m s with ⟨_ | _, _⟩ <;> rfl

theorem exec_tryCatch (m : Prog σ ε α) (h : ε → Prog σ ε α) :
    exec (tryCatch m h) s = match exec m s with
      | (.ok a, t) => (.ok a, t)
      | (.error e, t) => exec (h e) t := by
  unfold exec ExceptT.run
  simp only [tryCatch, tryCatchThe, MonadExceptOf.tryCatch, ExceptT.tryCatch, ExceptT.mk,
    bind, StateT.bind]
  rcases m s with ⟨_ | _, _⟩ <;> rfl

@[simp] theorem wp_tryCatch (m : Prog σ ε α) (h : ε → Prog σ ε α) :
    wp (tryCatch m h) Q E s = wp m Q (fun e => wp (h e) Q E) s := by
  unfold wp
  rw [exec_tryCatch]
  rcases exec m s with ⟨_ | _, _⟩ <;> rfl

/-! ## Consequence, and passing between `wp` and runs -/

theorem wp_mono {m : Prog σ ε α} (h : wp m Q E s) (hQ : ∀ a t, Q a t → Q' a t)
    (hE : ∀ e t, E e t → E' e t) : wp m Q' E' s := by
  unfold wp at h ⊢
  rcases hm : exec m s with ⟨_ | _, _⟩ <;> rw [hm] at h
  · exact hE _ _ h
  · exact hQ _ _ h

theorem wp_and {m : Prog σ ε α} (h : wp m Q E s) (h' : wp m Q' E' s) :
    wp m (fun a t => Q a t ∧ Q' a t) (fun e t => E e t ∧ E' e t) s := by
  unfold wp at h h' ⊢
  rcases hm : exec m s with ⟨_ | _, _⟩ <;> rw [hm] at h h' <;> exact ⟨h, h'⟩

theorem wp_error {m : Prog σ ε α} {e : ε} (h : wp m Q E s)
    (hm : exec m s = (.error e, t)) : E e t := by
  unfold wp at h
  rwa [hm] at h

/-- One postcondition for both outcomes is a statement about the result of the run. -/
theorem wp_exec {m : Prog σ ε α} {R : Except ε α → σ → Prop} :
    wp m (fun a t => R (.ok a) t) (fun e t => R (.error e) t) s ↔
      R (exec m s).1 (exec m s).2 := by
  unfold wp
  rcases exec m s with ⟨_ | _, _⟩ <;> exact Iff.rfl

/-- What holds of the state whether the program raises or not. -/
theorem wp_state {m : Prog σ ε α} {P : σ → Prop} (h : wp m (fun _ => P) (fun _ => P) s) :
    P (exec m s).2 :=
  (wp_exec (R := fun _ => P)).mp h

end

/-! ## Code that raises and has no state

What a returned value says about the steps it came through. -/

section

variable {ε α β : Type}

theorem bind_eq_error {x : Except ε α} {f : α → Except ε β} {e : ε} :
    (x >>= f) = .error e ↔ x = .error e ∨ ∃ a, x = .ok a ∧ f a = .error e := by
  cases x with
  | error e => simp [bind, Except.bind]
  | ok a => simp [bind, Except.bind]

theorem bind_eq_ok {x : Except ε α} {f : α → Except ε β} {b : β} :
    (x >>= f) = .ok b ↔ ∃ a, x = .ok a ∧ f a = .ok b := by
  cases x with
  | error e => simp [bind, Except.bind]
  | ok a => simp [bind, Except.bind]

theorem mapM_eq_ok {f : α → Except ε β} : ∀ {as : List α} {bs : List β},
    as.mapM f = .ok bs ↔ List.Forall₂ (fun a b => f a = .ok b) as bs
  | [], bs => by
      rw [List.mapM_nil, List.forall₂_nil_left_iff]
      exact ⟨fun h => (Except.ok.inj h).symm, fun h => h ▸ rfl⟩
  | a :: as, bs => by
      rw [List.mapM_cons, bind_eq_ok]
      constructor
      · rintro ⟨b, hb, h⟩
        obtain ⟨bs', hbs, h⟩ := bind_eq_ok.mp h
        cases h
        exact .cons hb (mapM_eq_ok.mp hbs)
      · intro h
        cases h with
        | cons hb hbs => exact ⟨_, hb, bind_eq_ok.mpr ⟨_, mapM_eq_ok.mpr hbs, rfl⟩⟩

theorem mapM_eq_error {f : α → Except ε β} {e : ε} : ∀ {as : List α},
    as.mapM f = .error e → ∃ a ∈ as, f a = .error e
  | [], h => by cases h
  | a :: as, h => by
      rw [List.mapM_cons] at h
      rcases bind_eq_error.mp h with ha | ⟨b, -, h⟩
      · exact ⟨a, List.mem_cons_self, ha⟩
      · rcases bind_eq_error.mp h with has | ⟨bs, -, h⟩
        · obtain ⟨a', hmem, ha'⟩ := mapM_eq_error has
          exact ⟨a', List.mem_cons_of_mem a hmem, ha'⟩
        · cases h

/-- A `mapM` raises when one of its elements does. -/
theorem mapM_fails {f : α → Except ε β} : ∀ {as : List α},
    (∃ e, as.mapM f = .error e) ↔ ∃ a ∈ as, ∃ e, f a = .error e
  | [] => by
      constructor
      · rintro ⟨e, h⟩
        cases h
      · rintro ⟨a, h, -⟩
        cases h
  | a :: as => by
      simp only [List.mem_cons, exists_eq_or_imp, ← mapM_fails, List.mapM_cons, bind_eq_error]
      constructor
      · rintro ⟨e, h | ⟨b, -, h | ⟨bs, -, h⟩⟩⟩
        · exact .inl ⟨e, h⟩
        · exact .inr ⟨e, h⟩
        · cases h
      · rintro (⟨e, h⟩ | ⟨e, h⟩)
        · exact ⟨e, .inl h⟩
        · cases hb : f a with
          | error e' => exact ⟨e', .inl rfl⟩
          | ok b => exact ⟨e, .inr ⟨b, rfl, .inl h⟩⟩

/-- Every result of a `mapM` comes from an element. -/
theorem mapM_mem {f : α → Except ε β} {as : List α} {bs : List β} {b : β}
    (h : as.mapM f = .ok bs) (hb : b ∈ bs) : ∃ a ∈ as, f a = .ok b := by
  have hall := mapM_eq_ok.mp h
  clear h
  induction hall with
  | nil => cases hb
  | @cons a b' as bs' hab _ ih =>
      obtain rfl | hb := List.mem_cons.mp hb
      · exact ⟨a, List.mem_cons_self, hab⟩
      · obtain ⟨a', ha', hf⟩ := ih hb
        exact ⟨a', List.mem_cons_of_mem a ha', hf⟩

/-- Every element of a `mapM` has its result. -/
theorem mapM_mem_result {f : α → Except ε β} {as : List α} {bs : List β} {a : α}
    (h : as.mapM f = .ok bs) (ha : a ∈ as) : ∃ b ∈ bs, f a = .ok b := by
  have hall := mapM_eq_ok.mp h
  clear h
  induction hall with
  | nil => cases ha
  | @cons a' b as' bs hab _ ih =>
      obtain rfl | ha := List.mem_cons.mp ha
      · exact ⟨b, List.mem_cons_self, hab⟩
      · obtain ⟨b', hb', hf⟩ := ih ha
        exact ⟨b', List.mem_cons_of_mem b hb', hf⟩

end

end Lib
