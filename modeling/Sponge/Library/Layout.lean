import Mathlib.Algebra.BigOperators.Group.List.Basic
import Mathlib.Algebra.Order.Ring.Nat
import Mathlib.Tactic.Common

/-!
# Layouts: things put one after the other

`LaidOut size P a xs b` says that the elements of `xs`, put one after the other
from position `a` on, each taking `size x` positions, end exactly at `b`, and that
`P` holds of each at its own position.  There is no gap and no overlap by
construction, so a queue of segments, frames or records that cover a stretch of an
index space is one such layout.

* `laidOut_append` — layouts compose and come apart at a cut.
* `LaidOut.stop_eq` — the end is the start and the sizes.
* `LaidOut.at_of_mem`, `LaidOut.bounded` — every element sits somewhere inside.

The property is checked at the position where an element starts, which is not a number
stored in the element: it is what the elements in front of it add up to.  So a record that
states its own position (a sequence number, an offset) is right exactly if the layout's `P`
says that it agrees, and the statement that *all* of them are right is one layout and not a
family of sums.
-/

namespace Layouts

universe u

variable {α : Type u} {size : α → ℕ} {P Q : ℕ → α → Prop}

/-- The elements of the list fill `[a, b)` in order, and each meets `P` where it
starts. -/
def LaidOut (size : α → ℕ) (P : ℕ → α → Prop) : ℕ → List α → ℕ → Prop
  | a, [], b => a = b
  | a, x :: xs, b => P a x ∧ LaidOut size P (a + size x) xs b

@[simp] theorem laidOut_nil {a b : ℕ} : LaidOut size P a [] b ↔ a = b := Iff.rfl

@[simp] theorem laidOut_cons {a b : ℕ} {x : α} {xs : List α} :
    LaidOut size P a (x :: xs) b ↔ P a x ∧ LaidOut size P (a + size x) xs b := Iff.rfl

/-- **Cutting and joining layouts.** -/
theorem laidOut_append {a b : ℕ} {xs ys : List α} :
    LaidOut size P a (xs ++ ys) b ↔ ∃ m, LaidOut size P a xs m ∧ LaidOut size P m ys b := by
  induction xs generalizing a with
  | nil => simp
  | cons x xs ih => simp [ih, and_assoc]

theorem LaidOut.append {a m b : ℕ} {xs ys : List α} (left : LaidOut size P a xs m)
    (right : LaidOut size P m ys b) : LaidOut size P a (xs ++ ys) b :=
  laidOut_append.mpr ⟨m, left, right⟩

/-- The layout ends where the sizes say. -/
theorem LaidOut.stop_eq {a b : ℕ} {xs : List α} (h : LaidOut size P a xs b) :
    b = a + (xs.map size).sum := by
  induction xs generalizing a with
  | nil => simpa [eq_comm] using h
  | cons x xs ih =>
      rw [ih h.2, List.map_cons, List.sum_cons, Nat.add_assoc]

theorem LaidOut.le {a b : ℕ} {xs : List α} (h : LaidOut size P a xs b) : a ≤ b := by
  rw [h.stop_eq]
  exact Nat.le_add_right _ _

/-- Every element sits at a position of its own inside the layout. -/
theorem LaidOut.at_of_mem {a b : ℕ} {xs : List α} (h : LaidOut size P a xs b) {x : α}
    (hx : x ∈ xs) : ∃ p, a ≤ p ∧ p + size x ≤ b ∧ P p x := by
  induction xs generalizing a with
  | nil => simp at hx
  | cons y ys ih =>
      rcases List.mem_cons.mp hx with rfl | hx
      · exact ⟨a, Nat.le_refl a, h.2.le, h.1⟩
      · obtain ⟨p, hp, hstop, hP⟩ := ih h.2 hx
        exact ⟨p, Nat.le_trans (Nat.le_add_right _ _) hp, hstop, hP⟩

/-- A weaker property of the elements gives a weaker layout. -/
theorem LaidOut.mono (weaker : ∀ p x, P p x → Q p x) {a b : ℕ} {xs : List α}
    (h : LaidOut size P a xs b) : LaidOut size Q a xs b := by
  induction xs generalizing a with
  | nil => exact h
  | cons x xs ih => exact ⟨weaker _ _ h.1, ih h.2⟩

/-- No element reaches past the end of the layout. -/
theorem LaidOut.bounded {a b : ℕ} {xs : List α} (h : LaidOut size P a xs b) :
    LaidOut size (fun p x => P p x ∧ p + size x ≤ b) a xs b := by
  induction xs generalizing a with
  | nil => exact h
  | cons x xs ih => exact ⟨⟨h.1, h.2.le⟩, ih h.2⟩

end Layouts
