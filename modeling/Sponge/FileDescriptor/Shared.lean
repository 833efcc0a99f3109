import Sponge.FileDescriptor

/-!
# A shared file descriptor

The rest of `libsponge/util/file_descriptor.{hh,cc}`: the wrapper that a descriptor and all
its duplicates point to, with the flags and counts that the event loop looks at, and
`read`.  Also `Socket::shutdown` of `libsponge/util/socket.cc`.

Whether a callback has done anything with its descriptor is told from the counts, so what
matters about an operation here is that it moves one of them (`registerRead_ne`,
`registerWrite_ne`): they wrap around, but not within one step.

What the source keeps nowhere is that a socket was shut down: `shutdown` is a system call,
and the wrapper only counts it.  The one field here that is not in the source, `shutdowns`,
stands for what the kernel has been told, so that a theorem can conclude that the call was
made and does not have to trust the flag of the one who makes it.

### Reading and writing are not alike

`read` takes the kernel's answer as an argument, since it makes one call.  `write` makes as
many as the loop of `FileDescriptor` does, so it is that loop, run on a descriptor of its
own with the wrapper's count, and what matters of it is put back.  Only the variant without
`write_all` is needed: a callback writes what it can and is called again.
-/

namespace Sponge

/-- The ways to shut a socket down. -/
inductive How where
  | rd
  | wr
  | rdwr
  deriving Repr, DecidableEq

/-- `FileDescriptor::FDWrapper`.  A descriptor and its duplicates share one. -/
structure FDWrapper where
  eof : Bool := false
  closed : Bool := false
  /-- `_read_count`, an `unsigned`. -/
  readCount : ℕ := 0
  /-- `_write_count`, an `unsigned`. -/
  writeCount : ℕ := 0
  /-- What the kernel has been told by `shutdown`, call by call. -/
  shutdowns : List How := []
  deriving Repr, DecidableEq

/-- The exceptions thrown while reading. -/
inductive ReadFault where
  /-- `unix_error("read")`, with the `errno`. -/
  | unixError (errno : ℤ)
  | readTooMuch
  /-- `std::length_error`, thrown by `std::string::resize`. -/
  | lengthError
  deriving Repr, DecidableEq

/-- The text carried by the exception; that of a `unix_error` goes on with the system's own
description of the `errno`. -/
def ReadFault.what : ReadFault → String
  | .unixError _ => "read: "
  | .readTooMuch => "read() read more than requested"
  | .lengthError => "basic_string::_M_replace_aux"

/-- What a call of `read` comes back with, and the bytes it has put into the buffer. -/
structure ReadAnswer extends Answer where
  data : List UInt8 := []
  deriving Repr, DecidableEq

namespace FDWrapper

/-- `register_read`. -/
def registerRead (w : FDWrapper) : FDWrapper :=
  { w with readCount := (w.readCount + 1) % 2 ^ 32 }

/-- `register_write`. -/
def registerWrite (w : FDWrapper) : FDWrapper :=
  { w with writeCount := (w.writeCount + 1) % 2 ^ 32 }

/-- The count of reads is a different one after a read. -/
theorem registerRead_ne (w : FDWrapper) : w.registerRead.readCount ≠ w.readCount := by
  show (w.readCount + 1) % 2 ^ 32 ≠ w.readCount
  omega

/-- And the count of writes after a write. -/
theorem registerWrite_ne (w : FDWrapper) : w.registerWrite.writeCount ≠ w.writeCount := by
  show (w.writeCount + 1) % 2 ^ 32 ≠ w.writeCount
  omega

/-- Nor do two writes bring the count back. -/
theorem registerWrite_twice_ne (w : FDWrapper) :
    w.registerWrite.registerWrite.writeCount ≠ w.writeCount := by
  show ((w.writeCount + 1) % 2 ^ 32 + 1) % 2 ^ 32 ≠ w.writeCount
  omega

/-! ## Reading -/

/-- `BUFFER_SIZE`, the maximum size of a read. -/
def bufferSize : ℕ := 1024 * 1024

/-- `read`: the bytes, and the wrapper afterwards. -/
def read (w : FDWrapper) (limit : ℕ) (answer : ReadAnswer) :
    Except ReadFault (List UInt8 × FDWrapper) :=
  let sizeToRead := min bufferSize limit
  match systemCall (asInt answer.returned) answer.errno 0 with
  | .error _ => .error (.unixError answer.errno)
  | .ok bytesRead =>
      let w := if 0 < limit ∧ bytesRead = 0 then { w with eof := true } else w
      if (sizeToRead : ℤ) < bytesRead then .error .readTooMuch
      -- as a `size_t`, a negative number is more than a string can hold
      else if bytesRead < 0 then .error .lengthError
      else .ok (answer.data.take bytesRead.toNat, w.registerRead)

/-- What a read that succeeds has done.  At the end of the file it returns nothing.  The count
always changes, which is what the event loop looks at to see that a callback has read. -/
structure HasRead (limit : ℕ) (w : FDWrapper) (data : List UInt8) (w' : FDWrapper) : Prop where
  length_le : data.length ≤ limit
  counted : w'.readCount ≠ w.readCount
  writeCount : w'.writeCount = w.writeCount
  closed : w'.closed = w.closed
  shutdowns : w'.shutdowns = w.shutdowns
  eof : w.eof = true → w'.eof = true
  atEnd : w'.eof = true → w.eof = true ∨ data = []

/-- Whatever the kernel answers. -/
theorem read_ok {w w' : FDWrapper} {limit : ℕ} {answer : ReadAnswer} {data : List UInt8}
    (h : w.read limit answer = .ok (data, w')) : HasRead limit w data w' := by
  unfold read at h
  simp only at h
  split at h
  · cases h
  next bytesRead called =>
  split at h
  · cases h
  next notTooMuch =>
  split at h
  · cases h
  simp only [Except.ok.injEq, Prod.mk.injEq] at h
  obtain ⟨rfl, rfl⟩ := h
  have hle : bytesRead.toNat ≤ limit := by omega
  have hlen : (answer.data.take bytesRead.toNat).length ≤ limit := by
    rw [List.length_take]
    omega
  by_cases ended : 0 < limit ∧ bytesRead = 0
  · rw [if_pos ended]
    refine ⟨hlen, registerRead_ne _, rfl, rfl, rfl, fun _ => rfl, fun _ => .inr ?_⟩
    rw [ended.2]
    rfl
  · rw [if_neg ended]
    exact ⟨hlen, registerRead_ne _, rfl, rfl, rfl, id, .inl⟩

/-- **A read with an answer in order** returns what the kernel has put into the buffer, and is at
the end of the file if that is nothing although something was asked for. -/
theorem read_of_fits {w : FDWrapper} {limit : ℕ} {answer : ReadAnswer}
    (returned : answer.returned = answer.data.length)
    (fits : answer.data.length ≤ min bufferSize limit) :
    w.read limit answer = .ok (answer.data,
      (if 0 < limit ∧ answer.data = [] then { w with eof := true } else w).registerRead) := by
  have hsize : bufferSize < 2 ^ 31 := by decide
  have called : systemCall (asInt answer.returned) answer.errno 0
      = .ok (answer.data.length : ℤ) := by
    rw [returned, asInt_of_lt (Int.natCast_nonneg _) (by omega), systemCall,
      if_pos (Or.inl (Int.natCast_nonneg _))]
  have hzero : (answer.data.length : ℤ) = 0 ↔ answer.data = [] := by
    rw [Int.natCast_eq_zero, List.length_eq_zero_iff]
  simp only [read, called, if_neg (show ¬((min bufferSize limit : ℕ) : ℤ) < answer.data.length by
    omega), if_neg (show ¬(answer.data.length : ℤ) < 0 by omega), Int.toNat_natCast,
    List.take_length, hzero]

/-! ## Writing -/

/-- One call of `write` with `write_all` off: the number of bytes, these bytes, and the wrapper
afterwards. -/
def write (w : FDWrapper) (writev : Writev) (buffer : List UInt8) :
    Except WriteFault (ℕ × List UInt8 × FDWrapper) :=
  let (fd, result) :=
    ({ writeCount := w.writeCount } : FileDescriptor).write writev ⟨[buffer]⟩ false
  match result with
  | .error fault => .error fault
  | .ok n => .ok (n, fd.written, { w with writeCount := fd.writeCount })

/-- A round that goes well is counted. -/
theorem round_writeCount {writev : Writev} {fd fd' : FileDescriptor} {buffer : BufferViewList}
    {rest : ℤ × BufferViewList} (h : fd.round writev buffer = (fd', .ok rest)) :
    fd'.writeCount = (fd.writeCount + 1) % 2 ^ 32 := by
  unfold FileDescriptor.round at h
  simp only at h
  split at h
  · cases h
  split at h
  · cases h
  split at h
  · cases h
  split at h
  · cases h
  · simp only [Prod.mk.injEq] at h
    rw [← h.1]
    rfl

/-- **A write with an honest kernel** puts out some of the bytes, at least one if there is one. -/
theorem write_honest {writev : Writev} (honest : Honest writev)
    (narrow : ∀ call iovecs, (writev call iovecs).returned < 2 ^ 31) (w : FDWrapper)
    {buffer : List UInt8} (fits : buffer.length < 2 ^ 63) :
    ∃ n ≤ buffer.length, (buffer ≠ [] → 0 < n) ∧
      w.write writev buffer = .ok (n, buffer.take n, w.registerWrite) := by
  have hview : (⟨[buffer]⟩ : BufferViewList).concatenate = buffer := List.flatten_singleton
  have hsize : (⟨[buffer]⟩ : BufferViewList).size = buffer.length := by
    rw [BufferViewList.size_eq (by rw [hview]; omega), hview]
  have short : (⟨[buffer]⟩ : BufferViewList).concatenate.length < 2 ^ 63 := by rwa [hview]
  obtain ⟨n, fd', rest, rounded, small, enough, -, out⟩ := FileDescriptor.round_honest honest narrow
    { writeCount := w.writeCount } short
  rw [hview] at enough out
  refine ⟨n, enough, fun nonempty => ?_, ?_⟩
  · obtain ⟨-, something, -⟩ := FileDescriptor.round_ok rounded
    have hpos : buffer.length ≠ 0 := fun h => nonempty (List.length_eq_zero_iff.mp h)
    by_contra zero
    exact hpos (hsize ▸ something (by omega))
  · have looped := FileDescriptor.writeLoop_ok rounded false 0
    rw [if_neg (by simp), asSize_of_nonneg (by omega), add64_of_lt (by omega), Nat.zero_add]
      at looped
    have hcount := round_writeCount rounded
    simp only [write, FileDescriptor.write, looped, out, hcount, List.nil_append]
    rfl

/-! ## Shutting down -/

/-- What `Socket::shutdown` registers. -/
def registerShutdown (w : FDWrapper) : How → FDWrapper
  | .rd => w.registerRead
  | .wr => w.registerWrite
  | .rdwr => w.registerRead.registerWrite

/-- `Socket::shutdown`, once the system call has succeeded. -/
def shutdown (w : FDWrapper) (how : How) : FDWrapper :=
  { w.registerShutdown how with shutdowns := w.shutdowns ++ [how] }

/-- `close`, once the system call has succeeded. -/
def close (w : FDWrapper) : FDWrapper := { w with eof := true, closed := true }

end FDWrapper

/-- A kernel that takes up to a page. -/
def takesPage : Writev := fun _ iovecs => ⟨min iovecs.flatten.length 4096, 0⟩

theorem honest_takesPage : Honest takesPage where
  nonneg _ iovecs := by
    simp only [takesPage]
    omega
  pos _ iovecs nonempty := by
    have := List.length_pos_iff.mpr nonempty
    simp only [takesPage]
    omega
  le _ iovecs := by
    simp only [takesPage]
    omega

end Sponge
