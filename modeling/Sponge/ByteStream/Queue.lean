import Sponge.ByteStream
import Sponge.Library.BoundedQueue
import Sponge.Library.GuardedRun

/-!
# A byte stream is a bounded queue

The stream keeps the length of its buffer in a counter, and the two totals in two more.
`Refines` ties a stream and the bytes that went through it to a bounded queue and its past,
and each call keeps the tie.

* `bounded_fifo` — what has been popped or read, followed by the buffer, is what has been
  accepted; the counters agree with the buffer, and none of them underflows.

The abstract queue has its conservation law as a field, so nothing about the stream is
proved by induction here: one call of the stream is one call of the queue (`Refines.step`),
the run rule carries that to whole runs, and the law is read off the queue at the end.
Calls of `end_input` and `set_error` are left out, for they touch neither bytes nor
counters.
-/

namespace Sponge

open Runs Queues

namespace ByteStream

/-- A call on a stream by its writer or its reader. -/
inductive Op where
  | write (data : List UInt8)
  | peekOutput (len : ℕ)
  | popOutput (len : ℕ)
  | read (len : ℕ)

/-- A stream with the bytes that were accepted and those that were popped or read.  The stream
keeps only how many they were. -/
structure Trace where
  stream : ByteStream
  accepted : List UInt8 := []
  taken : List UInt8 := []

namespace Trace

/-- An unused stream. -/
def start (capacity : ℕ) : Trace := { stream := ByteStream.new capacity }

/-- A write accepts as many bytes as it returns, and `pop_output` removes the bytes that
`peek_output` would have shown. -/
def step (t : Trace) : Op → Except Empty Trace
  | .write data =>
      let (realLen, stream) := t.stream.write data
      .ok { t with stream := stream, accepted := t.accepted ++ data.take realLen }
  | .peekOutput _ => .ok t
  | .popOutput len =>
      .ok { t with
        stream := t.stream.popOutput len
        taken := t.taken ++ t.stream.peekOutput len }
  | .read len =>
      let (bytes, stream) := t.stream.read len
      .ok { t with stream := stream, taken := t.taken ++ bytes }

/-- The stream and its bytes are those of a bounded queue.  The counters of the stream have no
counterpart in the queue; the invariant ties them to the buffer. -/
structure Refines (t : Trace) (h : History UInt8) : Prop where
  inv : t.stream.Inv
  capacity : t.stream.capacity = h.queue.capacity
  str : t.stream.str = h.queue.items
  accepted : t.accepted = h.accepted
  taken : t.taken = h.taken

/-- What a call is to a queue. -/
def onQueue (h : History UInt8) : Op → History UInt8
  | .write data => h.put data
  | .peekOutput _ => h
  | .popOutput len | .read len => h.take len

/-- An unused stream is an unused queue. -/
theorem refines_start {capacity : ℕ} (hcap : capacity < 2 ^ 64) :
    Refines (start capacity) (History.start capacity) :=
  ⟨inv_new hcap, rfl, rfl, rfl, rfl⟩

variable {t t' : Trace} {h : History UInt8}

/-- What still fits the stream fits the queue. -/
theorem Refines.room (r : Refines t h) : t.stream.remainingCapacity = h.queue.room := by
  rw [r.inv.remainingCapacity_eq, BoundedQueue.room, r.capacity, r.str]

/-- `peek_output` shows the front of the queue. -/
theorem Refines.peekOutput (r : Refines t h) (len : ℕ) :
    t.stream.peekOutput len = h.queue.items.take len := by
  rw [ByteStream.peekOutput, r.inv.bufferSize_eq, r.str, List.take_eq_take_iff]
  omega

/-- Popping takes from the queue. -/
theorem Refines.popOutput (r : Refines t h) (len : ℕ) :
    Refines { t with stream := t.stream.popOutput len, taken := t.taken ++ h.queue.items.take len }
      (h.take len) where
  inv := r.inv.popOutput len
  capacity := r.capacity
  str := by
    show (t.stream.popOutput len).str = h.queue.items.drop len
    rw [r.inv.popOutput_str, r.str]
  accepted := r.accepted
  taken := by
    show t.taken ++ _ = h.taken ++ _
    rw [r.taken]

/-- **A call on the stream is one on the queue.**  A write puts, a pop and a read take, and a peek
does nothing to the queue. -/
theorem Refines.step (r : Refines t h) {op : Op} (stepped : t.step op = .ok t') :
    Refines t' (onQueue h op) := by
  cases op with
  | write data =>
      obtain rfl := Except.ok.inj stepped
      have cut : data.take (min data.length t.stream.remainingCapacity)
          = data.take h.queue.room := by
        rw [r.room, List.take_eq_take_iff]
        omega
      refine ⟨r.inv.write data, r.capacity, ?_, ?_, r.taken⟩
      · show t.stream.str ++ data.take (min data.length t.stream.remainingCapacity)
          = h.queue.items ++ data.take h.queue.room
        rw [cut, r.str]
      · show t.accepted ++ data.take (min data.length t.stream.remainingCapacity)
          = h.accepted ++ data.take h.queue.room
        rw [cut, r.accepted]
  | peekOutput len =>
      obtain rfl := Except.ok.inj stepped
      exact r
  | popOutput len =>
      obtain rfl := Except.ok.inj stepped
      rw [r.peekOutput]
      exact r.popOutput len
  | read len =>
      have hread := r.inv.read_eq len
      rw [r.str] at hread
      simp only [Trace.step, hread] at stepped
      obtain rfl := Except.ok.inj stepped
      exact r.popOutput len

/-- After any calls the stream is some queue of its capacity. -/
theorem refines_of_run {capacity : ℕ} (hcap : capacity < 2 ^ 64)
    (run : GuardedRun Trace.step (fun _ _ => True) (start capacity) t) :
    ∃ h, Refines t h ∧ h.queue.capacity = capacity := by
  refine run.invariant (fun t => ∃ h, Refines t h ∧ h.queue.capacity = capacity)
    ⟨_, refines_start hcap, rfl⟩ ?_
  rintro t op t' ⟨h, r, same⟩ - stepped
  refine ⟨onQueue h op, r.step stepped, ?_⟩
  cases op <;> exact same

/-- **A byte stream is a bounded queue.**  After any calls on a stream:

* what was popped or read, followed by the buffer, is what was accepted;
* a write accepts as much as fits and puts it at the end of the buffer;
* `peek_output` shows the front of the buffer;
* the counter is the length of the buffer, which is at most the capacity;
* the totals differ by that length;
* what `remaining_capacity` and `pop_output` subtract is no larger than what they subtract it
  from. -/
theorem bounded_fifo {capacity : ℕ} (hcap : capacity < 2 ^ 64)
    (run : GuardedRun Trace.step (fun _ _ => True) (start capacity) t) :
    t.taken ++ t.stream.str = t.accepted ∧
      (∀ data, (t.stream.write data).1 = min data.length t.stream.remainingCapacity ∧
        (t.stream.write data).2.str = t.stream.str ++ data.take (t.stream.write data).1) ∧
      (∀ len, t.stream.peekOutput len = t.stream.str.take (min len t.stream.bufferSize)) ∧
      (t.stream.bufferSize = t.stream.str.length ∧ t.stream.str.length ≤ capacity) ∧
      (t.stream.bytesRead ≤ t.stream.bytesWritten ∧
        t.stream.bytesWritten - t.stream.bytesRead = t.stream.bufferSize) ∧
      (t.stream.curCap ≤ t.stream.capacity ∧
        t.stream.remainingCapacity = capacity - t.stream.curCap ∧
        ∀ len, min len t.stream.bufferSize ≤ t.stream.curCap ∧
          (t.stream.popOutput len).curCap + min len t.stream.bufferSize = t.stream.curCap) := by
  obtain ⟨h, r, same⟩ := refines_of_run hcap run
  have hcapacity : t.stream.capacity = capacity := r.capacity.trans same
  have hlength := r.inv.curCap_eq
  have hfits := r.inv.le_capacity
  have hbalance := r.inv.balance
  have hsize := r.inv.bufferSize_eq
  refine ⟨?_, fun data => ⟨rfl, rfl⟩, fun len => rfl, ⟨hsize, hcapacity ▸ hfits⟩, ⟨?_, ?_⟩,
    ?_, ?_, fun len => ⟨?_, ?_⟩⟩
  · rw [r.taken, r.str, r.accepted]
    exact h.conserved
  · omega
  · omega
  · omega
  · rw [r.inv.remainingCapacity_eq, hlength, hcapacity]
  · omega
  · show t.stream.curCap - min len t.stream.bufferSize + min len t.stream.bufferSize
      = t.stream.curCap
    omega

/-- A stream of two bytes is offered three, and read from. -/
theorem bounded_fifo_cut :
    ∃ t, execute Trace.step (start 2) [.write [1, 2, 3], .peekOutput 1, .read 1] = .ok t ∧
      t.stream.str = [2] ∧ [1] ++ t.stream.str = t.accepted := by
  obtain ⟨t, done, admitted, str, taken⟩ : ∃ t,
      execute Trace.step (start 2) [.write [1, 2, 3], .peekOutput 1, .read 1] = .ok t ∧
      Admitted Trace.step (fun _ _ => True) (start 2)
        [.write [1, 2, 3], .peekOutput 1, .read 1] ∧
      t.stream.str = [2] ∧ t.taken = [1] :=
    EndsIn.exists_ok (by decide +kernel)
  have hcap : 2 < 2 ^ 64 := by decide
  exact ⟨t, done, str, taken ▸ (bounded_fifo hcap (GuardedRun.of_execute admitted done)).1⟩

end Trace

end ByteStream

end Sponge
