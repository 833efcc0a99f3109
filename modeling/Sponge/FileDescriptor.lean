import Sponge.Parser
import Sponge.Word
import Mathlib.Tactic.Linarith

/-!
# Writing to a file descriptor

Embedding of `BufferViewList` of `libsponge/util/buffer.{hh,cc}`, of `SystemCall` of
`libsponge/util/util.{hh,cc}` and of `FileDescriptor::write` of
`libsponge/util/file_descriptor.{hh,cc}`.

The kernel may take less than it is offered, and the loop of `write` offers the rest again.
How much is taken is up to the kernel: `Writev` is any answer to any call, and the bytes that
go out are as many as the answer says, from the front of what was offered.

Three conversions between machine integers stand between the answer and the loop.  The
result of `writev` is a `ssize_t`, but `SystemCall` takes and returns an `int`; it is compared
with `ssize_t(buffer.size())`; and it is handed to `remove_prefix` as a `size_t`.

Main results:

* `BufferViewList.removePrefix_ok` — `remove_prefix` drops bytes from the front of the
  concatenation, wherever the views begin and end.
* `progress` — a round that is followed by another has dropped something, so the loop ends,
  whatever the kernel answers.
* `write_all_complete` — if the kernel's answers fit an `int`, everything goes out exactly once.

### An adversarial kernel

`Writev` is a function of the number of the call and of what is offered, so nothing is
assumed of how much the kernel takes, and it may behave differently each time.  What the
loop's termination needs is nothing at all, and what its correctness needs is `Honest`: this
is the contract of `writev`, stated once, and every result about writing has it as a
hypothesis.

The bytes that go out are determined by the kernel's answer and not by what the program
makes of it.  This is what makes it visible that an answer of two gigabytes is misread: the
bytes are out, and `write` throws (`write_all_throws`).
-/

namespace Sponge

/-- The exceptions thrown while writing. -/
inductive WriteFault where
  /-- `unix_error("writev")`, with the `errno`. -/
  | unixError (errno : ℤ)
  | wroteNothing
  | wroteTooMuch
  /-- `BufferViewList::remove_prefix`. -/
  | outOfRange
  deriving Repr, DecidableEq

/-- The text carried by the exception; that of a `unix_error` goes on with the system's own
description of the `errno`. -/
def WriteFault.what : WriteFault → String
  | .unixError _ => "writev: "
  | .wroteNothing => "write returned 0 given non-empty input buffer"
  | .wroteTooMuch => "write wrote more than length of input buffer"
  | .outOfRange => "BufferListView::remove_prefix"

/-! ## Views -/

/-- `BufferViewList`: the bytes that each of the views shows. -/
structure BufferViewList where
  views : List (List UInt8)
  deriving Repr, DecidableEq

namespace BufferViewList

/-- The constructor from a `BufferList`. -/
def ofBufferList (buffers : BufferList) : BufferViewList := ⟨buffers⟩

/-- The bytes that are shown. -/
def concatenate (b : BufferViewList) : List UInt8 := b.views.flatten

/-- `size`, a sum of `size_t`s. -/
def size (b : BufferViewList) : ℕ := b.views.foldl (fun ret buf => add64 ret buf.length) 0

/-- `as_iovecs`: a pointer and a length for each view, here the bytes they stand for. -/
def asIovecs (b : BufferViewList) : List (List UInt8) := b.views

/-- The loop of `remove_prefix`.  It stops as soon as nothing is left to remove, so views
that are empty may stay in front. -/
def removeLoop : List (List UInt8) → ℕ → Except WriteFault (List (List UInt8))
  | views, 0 => .ok views
  | [], _ + 1 => .error .outOfRange
  | view :: views, n + 1 =>
      if n + 1 < view.length then .ok (view.drop (n + 1) :: views)
      else removeLoop views (n + 1 - view.length)

/-- `remove_prefix`. -/
def removePrefix (b : BufferViewList) (n : ℕ) : Except WriteFault BufferViewList :=
  match removeLoop b.views n with
  | .ok views => .ok ⟨views⟩
  | .error fault => .error fault

theorem removePrefix_zero (b : BufferViewList) : b.removePrefix 0 = .ok b := by
  rw [removePrefix, removeLoop]

/-- The sum does not overflow on the way. -/
theorem foldl_size {views : List (List UInt8)} {ret : ℕ}
    (fits : ret + views.flatten.length < 2 ^ 64) :
    views.foldl (fun ret buf => add64 ret buf.length) ret = ret + views.flatten.length := by
  induction views generalizing ret with
  | nil => rfl
  | cons view views ih =>
      rw [List.flatten_cons, List.length_append, ← Nat.add_assoc] at fits ⊢
      rw [List.foldl_cons, add64_of_lt (by omega), ih fits]

/-- The size is the number of bytes, if that fits. -/
theorem size_eq {b : BufferViewList} (fits : b.concatenate.length < 2 ^ 64) :
    b.size = b.concatenate.length := by
  have sum : b.size = 0 + b.concatenate.length := foldl_size (by rwa [Nat.zero_add])
  rwa [Nat.zero_add] at sum

/-- **Removing from the front**: the loop succeeds if there is that much to remove, and drops
it from the concatenation. -/
theorem removeLoop_spec (views : List (List UInt8)) (n : ℕ) :
    (n ≤ views.flatten.length →
      ∃ views', removeLoop views n = .ok views' ∧ views'.flatten = views.flatten.drop n) ∧
    (views.flatten.length < n → removeLoop views n = .error .outOfRange) := by
  induction views generalizing n with
  | nil =>
      cases n with
      | zero => exact ⟨fun _ => ⟨[], rfl, rfl⟩, fun h => absurd h (Nat.not_lt_zero _)⟩
      | succ n => exact ⟨fun h => absurd h (Nat.not_succ_le_zero n), fun _ => rfl⟩
  | cons view views ih =>
      cases n with
      | zero => exact ⟨fun _ => ⟨_, rfl, rfl⟩, fun h => absurd h (Nat.not_lt_zero _)⟩
      | succ n =>
          rw [removeLoop, List.flatten_cons, List.length_append]
          by_cases inside : n + 1 < view.length
          · rw [if_pos inside]
            refine ⟨fun _ => ⟨_, rfl, ?_⟩, fun h => absurd h (by omega)⟩
            rw [List.flatten_cons, List.drop_append_of_le_length inside.le]
          · rw [if_neg inside]
            obtain ⟨found, missing⟩ := ih (n + 1 - view.length)
            refine ⟨fun h => ?_, fun h => missing (by omega)⟩
            obtain ⟨views', removed, hviews'⟩ := found (by omega)
            refine ⟨views', removed, ?_⟩
            rw [hviews', List.drop_append, List.drop_eq_nil_of_le (Nat.le_of_not_lt inside),
              List.nil_append]

/-- What is there can be removed, -/
theorem removePrefix_ok {b : BufferViewList} {n : ℕ} (enough : n ≤ b.concatenate.length) :
    ∃ b', b.removePrefix n = .ok b' ∧ b'.concatenate = b.concatenate.drop n := by
  obtain ⟨views', removed, hviews'⟩ := (removeLoop_spec b.views n).1 enough
  refine ⟨⟨views'⟩, ?_, hviews'⟩
  rw [removePrefix, removed]

/-- and nothing else. -/
theorem removePrefix_error {b : BufferViewList} {n : ℕ} (tooFew : b.concatenate.length < n) :
    b.removePrefix n = .error .outOfRange := by
  rw [removePrefix, (removeLoop_spec b.views n).2 tooFew]

/-- What is left after a removal that succeeded. -/
theorem concatenate_of_removePrefix {b b' : BufferViewList} {n : ℕ}
    (removed : b.removePrefix n = .ok b') :
    n ≤ b.concatenate.length ∧ b'.concatenate = b.concatenate.drop n := by
  by_cases enough : n ≤ b.concatenate.length
  · obtain ⟨b'', removed', hb''⟩ := removePrefix_ok enough
    rw [removed] at removed'
    rw [Except.ok.inj removed']
    exact ⟨enough, hb''⟩
  · rw [removePrefix_error (Nat.lt_of_not_le enough)] at removed
    cases removed

end BufferViewList

/-! ## Machine integers -/

/-- Conversion to `int`. -/
def asInt (n : ℤ) : ℤ := n.bmod (2 ^ 32)

/-- Conversion of a `size_t` to `ssize_t`. -/
def asSsize (n : ℕ) : ℤ := (n : ℤ).bmod (2 ^ 64)

/-- Conversion to `size_t`. -/
def asSize (n : ℤ) : ℕ := (n % 2 ^ 64).toNat

/-- A number that fits stays what it is; the same for the other conversions. -/
theorem asInt_of_lt {n : ℤ} (nonneg : 0 ≤ n) (small : n < 2 ^ 31) : asInt n = n :=
  Int.bmod_eq_of_le (by omega) (by omega)

/-- From `2 ^ 31` on, an `int` is negative. -/
theorem asInt_of_ge {n : ℤ} (large : 2 ^ 31 ≤ n) (word : n < 2 ^ 32) : asInt n = n - 2 ^ 32 := by
  rw [asInt, Int.bmod_def]
  omega

/-- Whatever comes out is an `int`. -/
theorem asInt_range (n : ℤ) : -2 ^ 31 ≤ asInt n ∧ asInt n < 2 ^ 31 := by
  rw [asInt, Int.bmod_def]
  omega

theorem asSsize_of_lt {n : ℕ} (small : n < 2 ^ 63) : asSsize n = n :=
  Int.bmod_eq_of_le (by omega) (by omega)

theorem asSize_of_nonneg {n : ℕ} (small : n < 2 ^ 64) : asSize n = n := by
  rw [asSize]
  omega

/-- An `int` other than zero is a `size_t` other than zero. -/
theorem asSize_pos {n : ℤ} (range : -2 ^ 31 ≤ n ∧ n < 2 ^ 31) (nonzero : n ≠ 0) :
    0 < asSize n := by
  rw [asSize]
  omega

/-! ## The kernel -/

/-- What a call of `writev` comes back with; `errno` is only set if the call failed, and
otherwise is what it was. -/
structure Answer where
  /-- A `ssize_t`. -/
  returned : ℤ
  errno : ℤ
  deriving Repr, DecidableEq

/-- The answers of the kernel, to each call and whatever it is offered. -/
abbrev Writev := ℕ → List (List UInt8) → Answer

/-- **An honest kernel** takes something if there is something, and no more than there is.  Within
that it is free, and may take a different amount in each call. -/
structure Honest (writev : Writev) : Prop where
  nonneg : ∀ call iovecs, 0 ≤ (writev call iovecs).returned
  pos : ∀ call iovecs, iovecs.flatten ≠ [] → 1 ≤ (writev call iovecs).returned
  le : ∀ call iovecs, (writev call iovecs).returned ≤ iovecs.flatten.length

/-- `SystemCall`. -/
def systemCall (returnValue errno errnoMask : ℤ) : Except WriteFault ℤ :=
  if 0 ≤ returnValue ∨ errno = errnoMask then .ok returnValue else .error (.unixError errno)

/-! ## The loop of `write` -/

/-- `FileDescriptor`, with what has happened to the file. -/
structure FileDescriptor where
  /-- `_write_count`, an `unsigned`. -/
  writeCount : ℕ := 0
  /-- The calls of `writev` so far. -/
  calls : ℕ := 0
  /-- The bytes that have gone out. -/
  written : List UInt8 := []
  deriving Repr, DecidableEq

namespace FileDescriptor

/-- The kernel takes the bytes it says it has taken. -/
def output (fd : FileDescriptor) (iovecs : List (List UInt8)) (answer : Answer) :
    FileDescriptor :=
  { fd with
    calls := fd.calls + 1
    written := fd.written ++ iovecs.flatten.take answer.returned.toNat }

/-- `register_write`. -/
def registerWrite (fd : FileDescriptor) : FileDescriptor :=
  { fd with writeCount := (fd.writeCount + 1) % 2 ^ 32 }

/-- One round of the loop: `bytes_written` and the buffer that is left. -/
def round (writev : Writev) (fd : FileDescriptor) (buffer : BufferViewList) :
    FileDescriptor × Except WriteFault (ℤ × BufferViewList) :=
  let answer := writev fd.calls buffer.asIovecs
  let fd := fd.output buffer.asIovecs answer
  match systemCall (asInt answer.returned) answer.errno 0 with
  | .error fault => (fd, .error fault)
  | .ok bytesWritten =>
      if bytesWritten = 0 ∧ buffer.size ≠ 0 then (fd, .error .wroteNothing)
      else if asSsize buffer.size < bytesWritten then (fd, .error .wroteTooMuch)
      else
        let fd := fd.registerWrite
        match buffer.removePrefix (asSize bytesWritten) with
        | .error fault => (fd, .error fault)
        | .ok buffer => (fd, .ok (bytesWritten, buffer))

/-- `SystemCall` returns what it was given. -/
theorem systemCall_ok {returnValue errno errnoMask n : ℤ}
    (h : systemCall returnValue errno errnoMask = .ok n) : n = returnValue := by
  unfold systemCall at h
  split at h
  · exact (Except.ok.inj h).symm
  · cases h

/-- A round that goes well has removed what `SystemCall` returned, which is not zero unless
there was nothing to write. -/
theorem round_ok {writev : Writev} {fd fd' : FileDescriptor} {buffer buffer' : BufferViewList}
    {bytesWritten : ℤ} (h : round writev fd buffer = (fd', .ok (bytesWritten, buffer'))) :
    bytesWritten = asInt (writev fd.calls buffer.asIovecs).returned ∧
      (bytesWritten = 0 → buffer.size = 0) ∧
      buffer.removePrefix (asSize bytesWritten) = .ok buffer' := by
  unfold round at h
  simp only at h
  split at h
  · cases h
  next n called =>
  split at h
  · cases h
  next nonempty =>
  split at h
  · cases h
  split at h
  · cases h
  next rest removed =>
  simp only [Prod.mk.injEq, Except.ok.injEq] at h
  obtain ⟨-, rfl, rfl⟩ := h
  refine ⟨systemCall_ok called, fun zero => ?_, removed⟩
  by_contra some
  exact nonempty ⟨zero, some⟩

/-- **Progress.**  A round that is followed by another has removed something.  This holds for
every kernel: one that takes nothing of something makes the source throw. -/
theorem progress {writev : Writev} {fd fd' : FileDescriptor} {buffer buffer' : BufferViewList}
    {bytesWritten : ℤ} (h : round writev fd buffer = (fd', .ok (bytesWritten, buffer')))
    (more : buffer'.size ≠ 0) : buffer'.concatenate.length < buffer.concatenate.length := by
  obtain ⟨value, nonempty, removed⟩ := round_ok h
  obtain ⟨enough, rest⟩ := BufferViewList.concatenate_of_removePrefix removed
  have hpos : 0 < asSize bytesWritten := by
    refine asSize_pos (value ▸ asInt_range _) fun zero => ?_
    -- nothing was removed, so the buffer is as empty as it was
    rw [zero, show asSize 0 = 0 from rfl, BufferViewList.removePrefix_zero] at removed
    rw [← Except.ok.inj removed] at more
    exact more (nonempty zero)
  rw [rest, List.length_drop]
  omega

/-- The loop of `write`. -/
def writeLoop (writev : Writev) (writeAll : Bool) (fd : FileDescriptor)
    (buffer : BufferViewList) (totalBytesWritten : ℕ) :
    FileDescriptor × Except WriteFault ℕ :=
  match _written : round writev fd buffer with
  | (fd, .error fault) => (fd, .error fault)
  | (fd, .ok (bytesWritten, buffer')) =>
      if _more : writeAll = true ∧ buffer'.size ≠ 0 then
        writeLoop writev writeAll fd buffer' (add64 totalBytesWritten (asSize bytesWritten))
      else (fd, .ok (add64 totalBytesWritten (asSize bytesWritten)))
termination_by buffer.concatenate.length
decreasing_by exact progress _written _more.2

/-- `write`: the descriptor afterwards, and the number of bytes or the exception. -/
def write (fd : FileDescriptor) (writev : Writev) (buffer : BufferViewList) (writeAll : Bool) :
    FileDescriptor × Except WriteFault ℕ := writeLoop writev writeAll fd buffer 0

/-- A round that passes its checks comes down to the removal. -/
theorem round_checked {writev : Writev} {fd : FileDescriptor} {buffer : BufferViewList} {n : ℤ}
    (called : systemCall (asInt (writev fd.calls buffer.asIovecs).returned)
      (writev fd.calls buffer.asIovecs).errno 0 = .ok n)
    (something : n = 0 → buffer.size = 0) (notTooMuch : n ≤ asSsize buffer.size) :
    round writev fd buffer
      = ((fd.output buffer.asIovecs (writev fd.calls buffer.asIovecs)).registerWrite,
        (buffer.removePrefix (asSize n)).map (n, ·)) := by
  have nonempty : ¬(n = 0 ∧ buffer.size ≠ 0) := fun h => h.2 (something h.1)
  simp only [round, called, if_neg nonempty, if_neg (not_lt.mpr notTooMuch)]
  cases buffer.removePrefix (asSize n) <;> rfl

/-- **A round with an honest kernel** whose answer fits an `int`: what the kernel took is what
is removed. -/
theorem round_honest {writev : Writev} (honest : Honest writev)
    (narrow : ∀ call iovecs, (writev call iovecs).returned < 2 ^ 31) (fd : FileDescriptor)
    {buffer : BufferViewList} (fits : buffer.concatenate.length < 2 ^ 63) :
    ∃ (n : ℕ) (fd' : FileDescriptor) (buffer' : BufferViewList),
      round writev fd buffer = (fd', .ok (n, buffer')) ∧ n < 2 ^ 31 ∧
        n ≤ buffer.concatenate.length ∧ buffer'.concatenate = buffer.concatenate.drop n ∧
        fd'.written = fd.written ++ buffer.concatenate.take n := by
  have hnarrow := narrow fd.calls buffer.asIovecs
  have hle := honest.le fd.calls buffer.asIovecs
  have hpos := honest.pos fd.calls buffer.asIovecs
  obtain ⟨n, hn⟩ := Int.eq_ofNat_of_zero_le (honest.nonneg fd.calls buffer.asIovecs)
  rw [hn] at hnarrow hle hpos
  have enough : n ≤ buffer.concatenate.length := Int.ofNat_le.mp hle
  have small : n < 2 ^ 31 := Int.ofNat_lt.mp hnarrow
  have hsize : buffer.size = buffer.concatenate.length := BufferViewList.size_eq (by omega)
  have called : systemCall (asInt n) (writev fd.calls buffer.asIovecs).errno 0 = .ok (n : ℤ) := by
    rw [asInt_of_lt (Int.natCast_nonneg n) hnarrow, systemCall, if_pos (Or.inl (Int.natCast_nonneg n))]
  have something : (n : ℤ) = 0 → buffer.size = 0 := by
    intro zero
    by_contra nonempty
    rw [hsize] at nonempty
    have := hpos (List.ne_nil_of_length_pos (Nat.pos_of_ne_zero nonempty))
    omega
  -- the source compares signed numbers, which is sound below `2 ^ 63`
  have notTooMuch : (n : ℤ) ≤ asSsize buffer.size := by
    rw [hsize, asSsize_of_lt fits]
    exact hle
  obtain ⟨buffer', removed, rest⟩ := BufferViewList.removePrefix_ok enough
  refine ⟨n, (fd.output buffer.asIovecs (writev fd.calls buffer.asIovecs)).registerWrite, buffer',
    ?_, small, enough, rest, ?_⟩
  · rw [← hn] at called
    rw [round_checked called (hn ▸ something) (hn ▸ notTooMuch), hn,
      asSize_of_nonneg (by omega), removed]
    rfl
  · show fd.written ++ buffer.views.flatten.take _ = _
    rw [hn]
    rfl

/-- The same of a round that has gone well. -/
theorem round_ok_honest {writev : Writev} (honest : Honest writev)
    (narrow : ∀ call iovecs, (writev call iovecs).returned < 2 ^ 31) {fd fd' : FileDescriptor}
    {buffer rest : BufferViewList} (fits : buffer.concatenate.length < 2 ^ 63)
    {bytesWritten : ℤ} (rounded : round writev fd buffer = (fd', .ok (bytesWritten, rest))) :
    ∃ n : ℕ, bytesWritten = n ∧ n < 2 ^ 31 ∧ n ≤ buffer.concatenate.length ∧
      rest.concatenate = buffer.concatenate.drop n ∧
      fd'.written = fd.written ++ buffer.concatenate.take n := by
  obtain ⟨n, fd₁, rest₁, honestly, removed⟩ := round_honest honest narrow fd fits
  rw [rounded] at honestly
  simp only [Prod.mk.injEq, Except.ok.injEq] at honestly
  obtain ⟨rfl, rfl, rfl⟩ := honestly
  exact ⟨n, rfl, removed⟩

/-- The loop after a round that went well. -/
theorem writeLoop_ok {writev : Writev} {fd fd' : FileDescriptor}
    {buffer buffer' : BufferViewList} {bytesWritten : ℤ}
    (rounded : round writev fd buffer = (fd', .ok (bytesWritten, buffer'))) (writeAll : Bool)
    (total : ℕ) :
    writeLoop writev writeAll fd buffer total
      = if writeAll = true ∧ buffer'.size ≠ 0 then
          writeLoop writev writeAll fd' buffer' (add64 total (asSize bytesWritten))
        else (fd', .ok (add64 total (asSize bytesWritten))) := by
  rw [writeLoop]
  split
  · next failed =>
    rw [rounded] at failed
    cases failed
  · next again =>
    rw [rounded] at again
    simp only [Prod.mk.injEq, Except.ok.injEq] at again
    obtain ⟨rfl, rfl, rfl⟩ := again
    simp only [dite_eq_ite]

/-- **The loop puts everything out**, by induction over its rounds: the bytes that are left
follow those that have gone out. -/
theorem writeLoop_honest {writev : Writev} (honest : Honest writev)
    (narrow : ∀ call iovecs, (writev call iovecs).returned < 2 ^ 31) (fd : FileDescriptor)
    (buffer : BufferViewList) (total : ℕ) (fits : buffer.concatenate.length < 2 ^ 63)
    (totalFits : total + buffer.concatenate.length < 2 ^ 64) :
    ∃ fd', writeLoop writev true fd buffer total
        = (fd', .ok (total + buffer.concatenate.length)) ∧
      fd'.written = fd.written ++ buffer.concatenate := by
  induction fd, buffer, total using writeLoop.induct writev true with
  | case1 fd buffer total _ fault failed =>
      obtain ⟨_, _, _, rounded, -⟩ := round_honest honest narrow fd fits
      rw [rounded] at failed
      cases failed
  | case2 fd buffer total fd₁ bytesWritten rest rounded more ih =>
      obtain ⟨n, rfl, small, enough, hrest, out⟩ := round_ok_honest honest narrow fits rounded
      have hsum : add64 total (asSize n) = total + n := by
        rw [asSize_of_nonneg (by omega), add64_of_lt (by omega)]
      have hlen : rest.concatenate.length = buffer.concatenate.length - n := by
        rw [hrest, List.length_drop]
      rw [writeLoop_ok rounded, if_pos more, hsum]
      rw [hsum] at ih
      obtain ⟨fd₂, looped, out'⟩ := ih (by omega) (by omega)
      refine ⟨fd₂, ?_, ?_⟩
      · rw [looped, hlen, Nat.add_assoc, Nat.add_sub_cancel' enough]
      · rw [out', out, hrest, List.append_assoc, List.take_append_drop]
  | case3 fd buffer total fd₁ bytesWritten rest rounded done =>
      obtain ⟨n, rfl, small, enough, hrest, out⟩ := round_ok_honest honest narrow fits rounded
      have hlen : rest.concatenate.length = buffer.concatenate.length - n := by
        rw [hrest, List.length_drop]
      -- nothing is left, so all of it was taken
      have hall : n = buffer.concatenate.length := by
        have hsize : rest.size = 0 := by simpa using done
        rw [BufferViewList.size_eq (by omega)] at hsize
        omega
      rw [writeLoop_ok rounded, if_neg done, asSize_of_nonneg (by omega), add64_of_lt (by omega)]
      refine ⟨fd₁, by rw [hall], ?_⟩
      rw [out, hall, List.take_length]

/-- **Partial writes lose and repeat nothing.**  Whatever part of the buffers an honest kernel
takes at each call, as long as its answer fits an `int`, `write` with `write_all` returns the
number of the bytes and has put out exactly these; and `remove_prefix` drops what it is asked
to, as long as there is that much. -/
theorem write_all_complete {writev : Writev} (honest : Honest writev)
    (narrow : ∀ call iovecs, (writev call iovecs).returned < 2 ^ 31) {buffers : BufferList}
    (fits : buffers.concatenate.length < 2 ^ 63) (fd : FileDescriptor) :
    (∃ fd', fd.write writev (.ofBufferList buffers) true
        = (fd', .ok buffers.concatenate.length) ∧
      fd'.written = fd.written ++ buffers.concatenate) ∧
    ∀ (buffer : BufferViewList) (n : ℕ), n ≤ buffer.concatenate.length →
      ∃ buffer', buffer.removePrefix n = .ok buffer' ∧
        buffer'.concatenate = buffer.concatenate.drop n := by
  refine ⟨?_, fun buffer n => BufferViewList.removePrefix_ok⟩
  have looped := writeLoop_honest honest narrow fd (.ofBufferList buffers) 0 fits
    (by rw [Nat.zero_add]; exact fits.trans (by decide))
  rwa [Nat.zero_add] at looped

/-- A kernel that takes one byte and two bytes in turn. -/
def inTurn : Writev := fun call iovecs =>
  ⟨(min (call % 2 + 1) iovecs.flatten.length : ℕ), 11⟩

theorem honest_inTurn : Honest inTurn where
  nonneg := fun _ _ => Int.natCast_nonneg _
  pos := by
    intro call iovecs nonempty
    have := List.length_pos_iff.mpr nonempty
    show (1 : ℤ) ≤ (min (call % 2 + 1) iovecs.flatten.length : ℕ)
    omega
  le := fun _ _ => Int.ofNat_le.mpr (Nat.min_le_right _ _)

theorem write_all_complete_inTurn :
    ∃ fd', write {} inTurn (.ofBufferList [[1], [], [2, 3, 4], [5]]) true = (fd', .ok 5) ∧
      fd'.written = [1, 2, 3, 4, 5] := by
  refine (write_all_complete honest_inTurn (fun call iovecs => ?_) (by decide) {}).1
  show ((min (call % 2 + 1) iovecs.flatten.length : ℕ) : ℤ) < 2 ^ 31
  omega

/-! ## Answers that do not fit -/

/-- A kernel that takes all that it is offered. -/
def takeAll : Writev := fun _ iovecs => ⟨iovecs.flatten.length, 0⟩

theorem honest_takeAll : Honest takeAll where
  nonneg := fun _ _ => Int.natCast_nonneg _
  pos := fun _ _ nonempty => Int.ofNat_le.mpr (List.length_pos_iff.mpr nonempty)
  le := fun _ _ => le_rfl

/-- An answer from `2 ^ 31` on becomes negative on its way through `SystemCall`, and then
a number of bytes to remove that no buffer has. -/
theorem round_takeAll {buffer : BufferViewList} (large : 2 ^ 31 ≤ buffer.concatenate.length)
    (word : buffer.concatenate.length < 2 ^ 32) (fd : FileDescriptor) :
    round takeAll fd buffer
      = ((fd.output buffer.asIovecs (takeAll fd.calls buffer.asIovecs)).registerWrite,
        .error .outOfRange) := by
  have negative : asInt buffer.concatenate.length = buffer.concatenate.length - 2 ^ 32 :=
    asInt_of_ge (by omega) (by omega)
  have hsize : asSsize buffer.size = buffer.concatenate.length := by
    rw [BufferViewList.size_eq (by omega), asSsize_of_lt (by omega)]
  have called : systemCall (asInt buffer.concatenate.length) 0 0
      = .ok (buffer.concatenate.length - 2 ^ 32) := by
    rw [negative, systemCall, if_pos (Or.inr rfl)]
  have failed : buffer.removePrefix (asSize (buffer.concatenate.length - 2 ^ 32))
      = .error .outOfRange := by
    apply BufferViewList.removePrefix_error
    rw [asSize]
    omega
  have checked : round takeAll fd buffer = _ :=
    round_checked called (by omega) (by rw [hsize]; omega)
  rw [checked, failed]
  rfl

/-- Everything is put out, and `write` throws. -/
theorem write_takeAll {buffer : BufferViewList} (large : 2 ^ 31 ≤ buffer.concatenate.length)
    (word : buffer.concatenate.length < 2 ^ 32) :
    (write {} takeAll buffer true).2 = .error .outOfRange ∧
      (write {} takeAll buffer true).1.written = buffer.concatenate := by
  have rounded := round_takeAll large word {}
  rw [write, writeLoop]
  split
  · next failed =>
    rw [rounded] at failed
    simp only [Prod.mk.injEq, Except.error.injEq] at failed
    obtain ⟨rfl, rfl⟩ := failed
    refine ⟨rfl, ?_⟩
    show [] ++ buffer.concatenate.take buffer.concatenate.length = buffer.concatenate
    rw [List.take_length, List.nil_append]
  · next again =>
    rw [rounded] at again
    cases again

/-- Two gigabytes that an honest kernel takes at once. -/
theorem write_all_throws : ∃ (writev : Writev) (buffers : BufferList),
    Honest writev ∧ buffers.concatenate.length < 2 ^ 63 ∧
      (write {} writev (.ofBufferList buffers) true).2 = .error .outOfRange ∧
      (write {} writev (.ofBufferList buffers) true).1.written = buffers.concatenate := by
  obtain ⟨bytes, hbytes⟩ : ∃ bytes : List UInt8, bytes.length = 2 ^ 31 :=
    ⟨List.replicate (2 ^ 31) 0, List.length_replicate⟩
  have hsize : (BufferViewList.ofBufferList [bytes]).concatenate.length = 2 ^ 31 := by
    rw [← hbytes]
    exact congrArg List.length List.flatten_singleton
  refine ⟨takeAll, [bytes], honest_takeAll, ?_, write_takeAll hsize.ge ?_⟩
  · exact hsize.trans_lt (by decide)
  · exact hsize.trans_lt (by decide)

end FileDescriptor

end Sponge
