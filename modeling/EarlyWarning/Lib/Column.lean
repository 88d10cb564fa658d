/-
# `Lib.Column` — what an object-relational mapper writes of a loaded row

A unit of work remembers the row as it was loaded and, when it is flushed, writes the columns
whose value has become another one.  When the row has changed since it was loaded, what stands in
the table afterwards is neither the object nor the other writer's row, but one of the two for each
column.
-/
import Mathlib.Tactic.TypeStar

namespace Lib

variable {α : Type*} [DecidableEq α] {loaded new current : α}

/-- A column after the flush, when it was `current` before. -/
def flushed (loaded new current : α) : α := if new = loaded then current else new

@[simp] theorem flushed_loaded : flushed loaded new loaded = new := by
  simp only [flushed]
  split
  case isTrue h => exact h.symm
  case isFalse => rfl

/-- The column has the value of the object when the object changes it or nobody else did. -/
theorem flushed_eq_new : flushed loaded new current = new ↔ (new = loaded → current = loaded) := by
  simp only [flushed]
  split
  case isTrue h => exact ⟨fun heq _ => heq.trans h, fun himp => (himp h).trans h.symm⟩
  case isFalse h => exact ⟨fun _ heq => absurd heq h, fun _ => rfl⟩

/-- What holds of both writers' values holds of the column. -/
theorem flushed_elim {p : α → Prop} (hnew : p new) (hcurrent : p current) :
    p (flushed loaded new current) := by
  simp only [flushed]
  split
  case isTrue => exact hcurrent
  case isFalse => exact hnew

end Lib
