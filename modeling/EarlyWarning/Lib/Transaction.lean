/-
# `Lib.Transaction` — a connection with a transaction in progress

What a program does on a connection to a database: it reads, executes statements, and begins,
commits or rolls back a transaction.  Whatever it does may fail, and the `faults` of a
connection say what fails next, so that a statement about every list of them is one about
every way in which the environment can behave.

Two kinds of facts are carried through a program.  `Does` says what it does inside a
transaction when nothing fails, and `Confined` that inside a transaction it leaves the
committed database alone, whatever fails.
-/
import EarlyWarning.Lib.Wp

namespace Lib

structure Connection (δ ε : Type) where
  /-- what the others see -/
  committed : δ
  /-- what the transaction in progress has made of it -/
  working : Option δ := none
  /-- what the next reads and statements raise, and nothing after them -/
  faults : List (Option ε) := []

abbrev Conn (δ ε α : Type) : Type := Prog (Connection δ ε) ε α

namespace Connection

variable {δ ε α β : Type}

/-- What the connection itself sees. -/
def view (c : Connection δ ε) : δ := c.working.getD c.committed

/-- Outside a transaction a statement is committed at once. -/
def write (c : Connection δ ε) (db : δ) : Connection δ ε :=
  match c.working with
  | none => { c with committed := db }
  | some _ => { c with working := some db }

/-- The environment may raise here. -/
def trip : Conn δ ε Unit := do
  let c ← get
  match c.faults with
  | [] => pure ()
  | none :: rest => set { c with faults := rest }
  | some e :: rest => do
      set { c with faults := rest }
      throw e

def inspect (f : δ → α) : Conn δ ε α := do
  trip
  let c ← get
  return f c.view

def execute (f : δ → Except ε δ) : Conn δ ε Unit := do
  trip
  let c ← get
  match f c.view with
  | .error e => throw e
  | .ok db => set (c.write db)

def begin : Conn δ ε Unit := do
  trip
  modify fun c => { c with working := some c.view }

def rollback : Conn δ ε Unit := modify fun c => { c with working := none }

def commit : Conn δ ε Unit := do
  trip
  modify fun c => { c with committed := c.view, working := none }

/-- A connection that is given back, in whatever way, is rolled back. -/
def withConnection (m : Conn δ ε Unit) : Conn δ ε Unit := do
  tryCatch (do trip; m) fun e => do
    rollback
    throw e
  rollback

/-! ## What a program does in a transaction -/

/-- In a transaction that sees `db` and when nothing fails, `m` returns `a` and the
transaction sees `db'`. -/
def Does (m : Conn δ ε α) (db : δ) (a : α) (db' : δ) : Prop :=
  ∀ committed, exec m ⟨committed, some db, []⟩ = (.ok a, ⟨committed, some db', []⟩)

variable {m : Conn δ ε α} {f : α → Conn δ ε β} {db db₁ db' : δ} {a : α} {b : β}

theorem does_pure : Does (pure a : Conn δ ε α) db a db := fun _ => rfl

theorem Does.bind (h : Does m db a db₁) (h' : Does (f a) db₁ b db') : Does (m >>= f) db b db' :=
  fun committed => by
    rw [exec_bind, h committed]
    exact h' committed

theorem does_inspect (f : δ → α) : Does (inspect f : Conn δ ε α) db (f db) db := fun _ => rfl

theorem does_execute {f : δ → Except ε δ} (h : f db = .ok db') :
    Does (execute f) db () db' := fun committed => by
  have hview : f (view ⟨committed, some db, ([] : List (Option ε))⟩) = .ok db' := h
  unfold execute
  rw [exec_bind]
  show exec (match f (view ⟨committed, some db, []⟩) with
    | .error e => throw e
    | .ok db => set (write ⟨committed, some db, []⟩ db)) _ = _
  rw [hview]
  rfl

/-- A loop: `I` holds of what is left of the list and what the transaction sees. -/
theorem does_forM {ι : Type} {f : ι → Conn δ ε PUnit} {I : List ι → δ → Prop}
    (hstep : ∀ i rest db, I (i :: rest) db → ∃ db', Does (f i) db ⟨⟩ db' ∧ I rest db') :
    ∀ {l : List ι} {db : δ}, I l db → ∃ db', Does (l.forM f) db ⟨⟩ db' ∧ I [] db'
  | [], db, h => ⟨db, does_pure, h⟩
  | i :: rest, db, h => by
      obtain ⟨db₁, hdoes, h₁⟩ := hstep i rest db h
      obtain ⟨db', hrest, h'⟩ := does_forM hstep h₁
      exact ⟨db', hdoes.bind hrest, h'⟩

/-! ## A transaction is not seen by the others -/

/-- In a transaction `m` leaves what is committed as it is, and stays in the transaction. -/
def Confined (m : Conn δ ε α) : Prop :=
  ∀ c : Connection δ ε, c.working.isSome = true →
    wp m (fun _ c' => c'.committed = c.committed ∧ c'.working.isSome = true)
      (fun _ c' => c'.committed = c.committed ∧ c'.working.isSome = true) c

theorem confined_pure : Confined (pure a : Conn δ ε α) := fun _ h => ⟨rfl, h⟩

theorem confined_throw {e : ε} : Confined (throw e : Conn δ ε α) := fun _ h => ⟨rfl, h⟩

theorem Confined.bind (h : Confined m) (h' : ∀ a, Confined (f a)) : Confined (m >>= f) := by
  intro c hc
  rw [wp_bind]
  refine wp_mono (h c hc) (fun a t ht => ?_) fun _ _ ht => ht
  refine wp_mono (h' a t ht.2) ?_ ?_ <;>
    exact fun _ _ hu => ⟨hu.1.trans ht.1, hu.2⟩

theorem confined_trip : Confined (trip : Conn δ ε Unit) := by
  intro c hc
  unfold trip
  rw [wp_bind, wp_get]
  split
  · exact ⟨rfl, hc⟩
  · exact ⟨rfl, hc⟩
  · exact ⟨rfl, hc⟩

theorem confined_inspect (f : δ → α) : Confined (inspect f : Conn δ ε α) :=
  confined_trip.bind fun _ _ h => ⟨rfl, h⟩

theorem confined_execute (f : δ → Except ε δ) : Confined (execute f) := by
  refine confined_trip.bind fun _ c hc => ?_
  rw [wp_bind, wp_get]
  cases f c.view with
  | error e => exact ⟨rfl, hc⟩
  | ok db =>
      obtain ⟨committed, working, faults⟩ := c
      cases working with
      | none => cases hc
      | some w => exact ⟨rfl, rfl⟩

theorem confined_forM {ι : Type} {f : ι → Conn δ ε PUnit} (h : ∀ i, Confined (f i)) :
    ∀ l : List ι, Confined (l.forM f)
  | [] => confined_pure
  | i :: rest => (h i).bind fun _ => confined_forM h rest

end Connection

end Lib
