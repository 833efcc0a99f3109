import Mathlib.Data.List.Basic
import Sponge.Word

/-!
# The in-order byte stream

Embedding of `libsponge/byte_stream.{hh,cc}`: a bounded queue of bytes with a
writer that can end the input and a reader that peeks and pops.  The length of
the buffer is kept in a counter `curCap` of its own, as in the source; `Inv`
says that the counters agree with the buffer, and every operation keeps it.

### What is kept from the source

`write` does not look at the end flag, so a writer that ends the input can go on writing;
nothing in the class prevents it, and the model does not either.  `pop_output` has a branch
of its own for the case that everything is popped.  Both are in the definitions.  That the
special case is no special case is `Inv.popOutput_str`.

`remaining_capacity` subtracts two `size_t` values and is written with `sub64`.  It is exact
only because of `Inv.le_capacity`; a stream with more bytes than capacity would report an
enormous amount of room.  The two totals are plain sums, since they count bytes that moved.

### What later modules use

A `@[simp]` lemma for each field that a call leaves alone, `Inv.write` and `Inv.popOutput`
for the invariant, and `Consumed`, which says in one structure that some bytes were taken
from the front and that nothing else changed.  `Consumed` composes (`Consumed.trans`), so a
loop that takes bytes piece by piece needs no lemma about the stream beyond it.
-/

namespace Sponge

/-- `ByteStream`.  The fields are the source's private members. -/
structure ByteStream where
  /-- `_str`: the bytes written and not yet popped. -/
  str : List UInt8 := []
  capacity : ℕ
  /-- `_cur_cap`: the number of bytes in the buffer. -/
  curCap : ℕ := 0
  bytesRead : ℕ := 0
  bytesWritten : ℕ := 0
  inputIsEnd : Bool := false
  error : Bool := false
  deriving Repr, DecidableEq

namespace ByteStream

/-- The constructor `ByteStream(capacity)`. -/
def new (capacity : ℕ) : ByteStream := { capacity := capacity }

/-- `buffer_size()`: the counter, not the length of the string. -/
def bufferSize (b : ByteStream) : ℕ := b.curCap

def bufferEmpty (b : ByteStream) : Bool := b.bufferSize == 0

def inputEnded (b : ByteStream) : Bool := b.inputIsEnd

/-- `eof()`: ended and drained. -/
def eof (b : ByteStream) : Bool := b.inputEnded && b.bufferEmpty

/-- `remaining_capacity()`, in unsigned arithmetic. -/
def remainingCapacity (b : ByteStream) : ℕ := sub64 b.capacity b.curCap

/-- Write as many bytes as fit; the count returned is the number accepted. -/
def write (b : ByteStream) (data : List UInt8) : ℕ × ByteStream :=
  let realLen := min data.length b.remainingCapacity
  (realLen,
    { b with
      str := b.str ++ data.take realLen
      bytesWritten := b.bytesWritten + realLen
      curCap := b.curCap + realLen })

/-- Copy up to `len` bytes from the output side. -/
def peekOutput (b : ByteStream) (len : ℕ) : List UInt8 :=
  b.str.take (min len b.bufferSize)

/-- Remove bytes from the output side.  `realLen` is at most `bufferSize`, so
neither subtraction wraps. -/
def popOutput (b : ByteStream) (len : ℕ) : ByteStream :=
  let realLen := min len b.bufferSize
  { b with
    str :=
      if realLen == b.bufferSize then []
      else (b.str.drop realLen).take (b.bufferSize - realLen)
    curCap := b.curCap - realLen
    bytesRead := b.bytesRead + realLen }

/-- Copy and then pop the next `len` bytes. -/
def read (b : ByteStream) (len : ℕ) : List UInt8 × ByteStream :=
  let realLen := min len b.bufferSize
  (b.peekOutput realLen, b.popOutput realLen)

def endInput (b : ByteStream) : ByteStream := { b with inputIsEnd := true }

def setError (b : ByteStream) : ByteStream := { b with error := true }

/-! ### The representation invariant -/

/-- The counters agree with the buffer, which fits the capacity, and the capacity is a `size_t`.
The counts of bytes are natural numbers and not bounded. -/
structure Inv (b : ByteStream) : Prop where
  curCap_eq : b.curCap = b.str.length
  le_capacity : b.str.length ≤ b.capacity
  capacity_lt : b.capacity < 2 ^ 64
  balance : b.bytesWritten = b.bytesRead + b.str.length

/-- A new stream has nothing to disagree about. -/
theorem inv_new {capacity : ℕ} (h : capacity < 2 ^ 64) : (new capacity).Inv where
  curCap_eq := rfl
  le_capacity := Nat.zero_le _
  capacity_lt := h
  balance := rfl

/-- No stream is fuller than its capacity, so the subtraction is exact. -/
theorem Inv.remainingCapacity_eq {b : ByteStream} (inv : b.Inv) :
    b.remainingCapacity = b.capacity - b.str.length := by
  rw [remainingCapacity, inv.curCap_eq, sub64_of_le inv.le_capacity]

theorem Inv.bufferSize_eq {b : ByteStream} (inv : b.Inv) :
    b.bufferSize = b.str.length := inv.curCap_eq

/-- An empty buffer is one without bytes. -/
theorem Inv.bufferEmpty_iff {b : ByteStream} (inv : b.Inv) :
    b.bufferEmpty = true ↔ b.str = [] := by
  simp [bufferEmpty, inv.bufferSize_eq]

/-- The reader is at the end when the input has ended and every byte was popped. -/
theorem Inv.eof_iff {b : ByteStream} (inv : b.Inv) :
    b.eof = true ↔ b.inputIsEnd = true ∧ b.str = [] := by
  simp [eof, inputEnded, inv.bufferEmpty_iff]

/-! ### Writing -/

@[simp] theorem write_fst (b : ByteStream) (data : List UInt8) :
    (b.write data).1 = min data.length b.remainingCapacity := rfl

@[simp] theorem write_str (b : ByteStream) (data : List UInt8) :
    (b.write data).2.str = b.str ++ data.take (min data.length b.remainingCapacity) := rfl

@[simp] theorem write_bytesWritten (b : ByteStream) (data : List UInt8) :
    (b.write data).2.bytesWritten
      = b.bytesWritten + min data.length b.remainingCapacity := rfl

@[simp] theorem write_capacity (b : ByteStream) (data : List UInt8) :
    (b.write data).2.capacity = b.capacity := rfl

@[simp] theorem write_bytesRead (b : ByteStream) (data : List UInt8) :
    (b.write data).2.bytesRead = b.bytesRead := rfl

@[simp] theorem write_inputIsEnd (b : ByteStream) (data : List UInt8) :
    (b.write data).2.inputIsEnd = b.inputIsEnd := rfl

@[simp] theorem write_error (b : ByteStream) (data : List UInt8) :
    (b.write data).2.error = b.error := rfl

/-- What does not fit is not written, so the stream stays within its capacity. -/
theorem Inv.write {b : ByteStream} (inv : b.Inv) (data : List UInt8) :
    (b.write data).2.Inv := by
  have hrem := inv.remainingCapacity_eq
  have hcap := inv.le_capacity
  refine ⟨?_, ?_, inv.capacity_lt, ?_⟩
  · simp [ByteStream.write, inv.curCap_eq]
  · simp only [write_str, write_capacity, List.length_append, List.length_take, hrem]
    omega
  · have := inv.balance
    simp only [write_str, write_bytesWritten, write_bytesRead, List.length_append,
      List.length_take]
    omega

/-! ### Popping -/

/-- Popping drops the bytes from the front, the special case of popping
everything included. -/
theorem Inv.popOutput_str {b : ByteStream} (inv : b.Inv) (len : ℕ) :
    (b.popOutput len).str = b.str.drop len := by
  simp only [popOutput, inv.bufferSize_eq]
  split
  · next all =>
    have : b.str.length ≤ len := by
      have := beq_iff_eq.mp all
      omega
    exact (List.drop_eq_nil_of_le this).symm
  · next notAll =>
    have hne : min len b.str.length ≠ b.str.length := fun h => notAll (beq_iff_eq.mpr h)
    rw [Nat.min_eq_left (by omega)]
    exact List.take_of_length_le (by simp)

@[simp] theorem popOutput_capacity (b : ByteStream) (len : ℕ) :
    (b.popOutput len).capacity = b.capacity := rfl

@[simp] theorem popOutput_bytesWritten (b : ByteStream) (len : ℕ) :
    (b.popOutput len).bytesWritten = b.bytesWritten := rfl

@[simp] theorem popOutput_bytesRead (b : ByteStream) (len : ℕ) :
    (b.popOutput len).bytesRead = b.bytesRead + min len b.bufferSize := rfl

@[simp] theorem popOutput_inputIsEnd (b : ByteStream) (len : ℕ) :
    (b.popOutput len).inputIsEnd = b.inputIsEnd := rfl

@[simp] theorem popOutput_error (b : ByteStream) (len : ℕ) :
    (b.popOutput len).error = b.error := rfl

/-- Popping moves a number from the counter to the total. -/
theorem Inv.popOutput {b : ByteStream} (inv : b.Inv) (len : ℕ) :
    (b.popOutput len).Inv := by
  have hstr := inv.popOutput_str len
  have hcap := inv.le_capacity
  refine ⟨?_, ?_, inv.capacity_lt, ?_⟩
  · rw [hstr, List.length_drop]
    simp only [ByteStream.popOutput, inv.bufferSize_eq, inv.curCap_eq]
    omega
  · rw [hstr, List.length_drop, popOutput_capacity]
    omega
  · have := inv.balance
    rw [hstr, List.length_drop, popOutput_bytesWritten, popOutput_bytesRead,
      inv.bufferSize_eq]
    omega

/-- A read returns the first bytes of the buffer and leaves the rest. -/
theorem Inv.read_eq {b : ByteStream} (inv : b.Inv) (len : ℕ) :
    b.read len = (b.str.take len, b.popOutput len) := by
  have hmin : b.popOutput (min len b.bufferSize) = b.popOutput len := by
    simp [ByteStream.popOutput]
  simp only [read, peekOutput, hmin, Prod.mk.injEq, and_true]
  rw [inv.bufferSize_eq, Nat.min_assoc, Nat.min_self, List.take_eq_take_iff]
  omega

/-! ### Bytes leaving the stream -/

/-- `bytes` have been taken from the front, and nothing else has changed.  It is what the reader
of a stream may assume of a `pop_output` and of a `read` alike. -/
structure Consumed (b : ByteStream) (bytes : List UInt8) (b' : ByteStream) : Prop where
  inv : b'.Inv
  str_eq : b.str = bytes ++ b'.str
  bytesRead_eq : b'.bytesRead = b.bytesRead + bytes.length
  frame : b' = { b with str := b'.str, curCap := b'.curCap, bytesRead := b'.bytesRead }

/-- Taking nothing. -/
theorem Inv.consumed_nil {b : ByteStream} (inv : b.Inv) : Consumed b [] b :=
  ⟨inv, rfl, rfl, rfl⟩

/-- Popping takes the front of the buffer. -/
theorem Inv.consumed_popOutput {b : ByteStream} (inv : b.Inv) (len : ℕ) :
    Consumed b (b.str.take len) (b.popOutput len) where
  inv := inv.popOutput len
  str_eq := by rw [inv.popOutput_str, List.take_append_drop]
  bytesRead_eq := by
    rw [popOutput_bytesRead, inv.bufferSize_eq, List.length_take]
  frame := rfl

/-- Taking twice is taking once. -/
theorem Consumed.trans {b b' b'' : ByteStream} {bytes bytes' : List UInt8}
    (h : Consumed b bytes b') (h' : Consumed b' bytes' b'') :
    Consumed b (bytes ++ bytes') b'' where
  inv := h'.inv
  str_eq := by rw [h.str_eq, h'.str_eq, List.append_assoc]
  bytesRead_eq := by
    rw [h'.bytesRead_eq, h.bytesRead_eq, List.length_append, Nat.add_assoc]
  frame := by rw [h'.frame, h.frame]

theorem Consumed.inputIsEnd {b b' : ByteStream} {bytes : List UInt8}
    (h : Consumed b bytes b') : b'.inputIsEnd = b.inputIsEnd := by
  rw [h.frame]

/-- Ending the input or setting the error flag touches no counter. -/
theorem Inv.endInput {b : ByteStream} (inv : b.Inv) : b.endInput.Inv :=
  ⟨inv.curCap_eq, inv.le_capacity, inv.capacity_lt, inv.balance⟩

theorem Inv.setError {b : ByteStream} (inv : b.Inv) : b.setError.Inv :=
  ⟨inv.curCap_eq, inv.le_capacity, inv.capacity_lt, inv.balance⟩

end ByteStream

end Sponge
