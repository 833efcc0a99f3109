import Mathlib.Data.List.Basic

/-!
# Bounded queues

A queue of limited capacity takes what fits of what it is offered, and gives up what it has
of what it is asked for.  Both are total: nothing is refused, only cut.

* `BoundedQueue` — the items in their order, never more than the capacity.
* `History` — a queue with all that went in and all that came out.  That nothing is lost,
  invented or overtaken is a field of it: what came out, followed by what is inside, is what
  went in.
* `History.put`, `History.take` — the two calls.

The invariants are fields, so a queue that is too full or a history that has lost something
cannot be written down.  A component that refines `History` gets conservation and order for
free: what it has to show is that each of its calls is `put` or `take` with the right
arguments.
-/

namespace Queues

universe u

/-- A queue that holds at most `capacity` items.  The bound is a field, so no operation has to
promise it. -/
structure BoundedQueue (α : Type u) where
  capacity : ℕ
  items : List α
  fits : items.length ≤ capacity

namespace BoundedQueue

variable {α : Type u} (q : BoundedQueue α)

/-- The number of items that still fit. -/
def room : ℕ := q.capacity - q.items.length

/-- What fits of the offer goes to the end; the rest is not taken. -/
def enqueue (offer : List α) : BoundedQueue α where
  capacity := q.capacity
  items := q.items ++ offer.take q.room
  fits := by
    have := q.fits
    rw [List.length_append, List.length_take, room]
    omega

/-- Up to `n` items leave at the front. -/
def dequeue (n : ℕ) : BoundedQueue α where
  capacity := q.capacity
  items := q.items.drop n
  fits := by
    have := q.fits
    rw [List.length_drop]
    omega

end BoundedQueue

/-- A queue with its past.  That nothing is lost or reordered is a field, and so holds of every
history that can be built. -/
structure History (α : Type u) where
  queue : BoundedQueue α
  accepted : List α
  taken : List α
  conserved : taken ++ queue.items = accepted

namespace History

variable {α : Type u} (h : History α)

/-- An empty queue that has not been used. -/
def start (capacity : ℕ) : History α where
  queue := ⟨capacity, [], Nat.zero_le _⟩
  accepted := []
  taken := []
  conserved := rfl

/-- An offer, with what was accepted of it written down. -/
def put (offer : List α) : History α where
  queue := h.queue.enqueue offer
  accepted := h.accepted ++ offer.take h.queue.room
  taken := h.taken
  conserved := by
    rw [← h.conserved, List.append_assoc]
    rfl

/-- A request for `n` items, with what was handed over written down. -/
def take (n : ℕ) : History α where
  queue := h.queue.dequeue n
  accepted := h.accepted
  taken := h.taken ++ h.queue.items.take n
  conserved := by
    rw [← h.conserved, List.append_assoc, BoundedQueue.dequeue, List.take_append_drop]

end History

end Queues
