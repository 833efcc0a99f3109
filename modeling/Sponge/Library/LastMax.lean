import Mathlib.Algebra.Order.Ring.Nat
import Mathlib.Order.Defs.LinearOrder
import Mathlib.Tactic.Common

/-!
# The last maximum of a list

`LastMax key l x`: the element `x` of `l` has the greatest key, and of those with the
greatest key it is the last.  This is what a scan finds that replaces its candidate by every
element with a key at least as great.

* `LastMax.snoc_of_le`, `LastMax.snoc_of_lt` — one step of the scan.
* `LastMax.eq_of_filter_eq` — the last maximum does not depend on the order of elements
  with different keys; in particular there is only one.

The definition cuts the list at `x` and does not speak of positions: the part in front has
keys that are at most as great, the part behind has smaller ones.  One step of a scan
appends an element, and both cases of the step are read off the cut.
-/

namespace Maxima

universe u v

variable {α : Type u} {κ : Type v} [LinearOrder κ] {key : α → κ} {l l' : List α} {x y : α}

/-- Nothing before `x` has a greater key, and everything after it has a smaller one. -/
def LastMax (key : α → κ) (l : List α) (x : α) : Prop :=
  ∃ front back, l = front ++ x :: back ∧ (∀ y ∈ front, key y ≤ key x) ∧
    ∀ y ∈ back, key y < key x

theorem LastMax.mem (h : LastMax key l x) : x ∈ l := by
  obtain ⟨front, back, rfl, -, -⟩ := h
  exact List.mem_append_right _ List.mem_cons_self

/-- No element has a greater key. -/
theorem LastMax.le (h : LastMax key l x) (hy : y ∈ l) : key y ≤ key x := by
  obtain ⟨front, back, rfl, before, later⟩ := h
  rcases List.mem_append.mp hy with hfront | hrest
  · exact before y hfront
  · rcases List.mem_cons.mp hrest with rfl | hback
    · exact le_refl _
    · exact le_of_lt (later y hback)

/-- A candidate with a key at least as great takes over. -/
theorem lastMax_snoc (h : ∀ y ∈ l, key y ≤ key x) : LastMax key (l ++ [x]) x := by
  refine ⟨l, [], rfl, h, ?_⟩
  intro y hy
  cases hy

theorem LastMax.snoc_of_le (h : LastMax key l x) (hle : key x ≤ key y) :
    LastMax key (l ++ [y]) y := by
  apply lastMax_snoc
  intro z hz
  exact le_trans (h.le hz) hle

/-- One with a smaller key does not. -/
theorem LastMax.snoc_of_lt (h : LastMax key l x) (hlt : key y < key x) :
    LastMax key (l ++ [y]) x := by
  obtain ⟨front, back, rfl, before, later⟩ := h
  refine ⟨front, back ++ [y], by simp, before, ?_⟩
  intro z hz
  rcases List.mem_append.mp hz with hback | hlast
  · exact later z hback
  · rw [List.mem_singleton.mp hlast]
    exact hlt

/-- The last maximum is the last of the elements with its key. -/
theorem LastMax.getLast?_filter (h : LastMax key l x) :
    (l.filter fun y => key y = key x).getLast? = some x := by
  obtain ⟨front, back, rfl, -, later⟩ := h
  have none : back.filter (fun y => key y = key x) = [] := by
    apply List.filter_eq_nil_iff.mpr
    intro y hy same
    exact absurd (of_decide_eq_true same) (ne_of_lt (later y hy))
  rw [List.filter_append, List.filter_cons_of_pos (by simp), none,
    List.getLast?_append, List.getLast?_singleton, Option.some_or]

/-- **Order does not matter across keys.**  Two lists with the same elements of each key, in
the same order, have the same last maximum. -/
theorem LastMax.eq_of_filter_eq (h : LastMax key l x) (h' : LastMax key l' y)
    (same : ∀ k, (l.filter fun z => key z = k) = l'.filter fun z => key z = k) : x = y := by
  have mem : ∀ z, z ∈ l ↔ z ∈ l' := by
    intro z
    have hz := congrArg (z ∈ ·) (same (key z))
    simpa using hz
  have hkey : key x = key y :=
    le_antisymm (h'.le ((mem x).mp h.mem)) (h.le ((mem y).mpr h'.mem))
  have hlast := h.getLast?_filter
  rw [same, hkey, h'.getLast?_filter] at hlast
  exact (Option.some.inj hlast).symm

end Maxima
