import Sponge.StreamReassembler.Session
import Sponge.TCPSegment

/-!
# The TCP receiver

Embedding of `libsponge/tcp_receiver.{hh,cc}`.  The receiver turns the sequence
number of an inbound segment into a stream index and hands the payload to the
reassembler; the acknowledgment number is the reassembler's position, one further
for the SYN and one further again once the stream has ended.

Two results about whole runs of segments and reads:

* `receiver_progress_iff` — a segment that carries the next byte is taken, **except**
  where its sequence number coincides with the initial one
  (`progress_stalls_after_wrap`: the filter compares 32-bit values, so the stream
  stops for good just before byte `2^32`).
* `isn_stable` — the initial sequence number and the acknowledged position are
  stable as long as every later SYN repeats the first one
  (`second_syn_moves_isn`: the handler reassigns it otherwise).

### The filter

`segment_received` drops a segment whose payload would start at the initial sequence number
itself, for that number belongs to the SYN.  The comparison is between 32-bit values.  It is
right in the first turn of the sequence space and drops a legitimate byte in every later
one, so the progress statement is an equivalence: it names the positions where the byte is
lost instead of excluding them by a bound on the stream.

### The range condition

`unwrap` may place a segment up to a turn above the write index, and a payload may be as
long as a string.  `InRange` keeps the sum of the three below `2 ^ 64`; it is a condition on
the state and the payload and not on the sequence number, so a peer may still send any
number.  Results that only speak about what never goes back do without it
(`segmentReceived_grown`, `isn_stable`).
-/

namespace Sponge

open Chunks Runs

/-- `TCPReceiver`.  The capacity is kept here, in the reassembler and in the stream; that it is
the same here and in the stream is part of the invariant. -/
structure TCPReceiver where
  reassembler : StreamReassembler
  isn : Option WrappingInt32 := none
  capacity : ℕ
  deriving Repr, DecidableEq

namespace TCPReceiver

/-- The constructor `TCPReceiver(capacity)`. -/
def new (capacity : ℕ) : TCPReceiver :=
  { reassembler := StreamReassembler.new capacity, capacity := capacity }

def streamOut (r : TCPReceiver) : ByteStream := r.reassembler.output

/-- `_reassembler.cur_index()`. -/
def curIndex (r : TCPReceiver) : ℕ := r.reassembler.curIndex

def unassembledBytes (r : TCPReceiver) : ℕ := r.reassembler.unassembledBytes

/-- The absolute sequence number acknowledged: SYN and FIN take one each. -/
def ackPosition (r : TCPReceiver) : ℕ :=
  r.curIndex + 1 + (if r.streamOut.inputEnded then 1 else 0)

/-- `ackno()`: none before a SYN has arrived. -/
def ackno (r : TCPReceiver) : Option WrappingInt32 :=
  match r.isn with
  | some isn => some (wrap r.ackPosition isn)
  | none => none

/-- `window_size()`, in unsigned arithmetic. -/
def windowSize (r : TCPReceiver) : ℕ := sub64 r.capacity r.streamOut.bufferSize

/-- Where the payload of a segment starts, on the wire. -/
def dataStart (seg : TCPSegment) : WrappingInt32 :=
  if seg.header.syn then seg.header.seqno + (1 : UInt32) else seg.header.seqno

/-- Every SYN assigns `_isn`. -/
def isnAfter (r : TCPReceiver) (seg : TCPSegment) : Option WrappingInt32 :=
  if seg.header.syn then some seg.header.seqno else r.isn

/-- The stream index of the payload, relative to the initial sequence number. -/
def streamIndex (r : TCPReceiver) (seg : TCPSegment) (isn : WrappingInt32) : ℕ :=
  sub64 (unwrap (dataStart seg) isn r.curIndex) 1

/-- `segment_received`: the SYN, the filter, and the push. -/
def segmentReceived (r : TCPReceiver) (seg : TCPSegment) : Except Fault TCPReceiver :=
  match r.isnAfter seg with
  | none => .ok { r with isn := none }
  | some isn =>
      if isn = dataStart seg then .ok { r with isn := some isn }
      else
        match r.reassembler.pushSubstring seg.payload (r.streamIndex seg isn)
            seg.header.fin with
        | .ok reassembler => .ok { r with isn := some isn, reassembler := reassembler }
        | .error fault => .error fault

/-- `stream_out().read(len)`. -/
def readOut (r : TCPReceiver) (len : ℕ) : List UInt8 × TCPReceiver :=
  ((r.reassembler.readOut len).1, { r with reassembler := (r.reassembler.readOut len).2 })

/-- `stream_out().set_error()`. -/
def setError (r : TCPReceiver) : TCPReceiver :=
  { r with reassembler := { r.reassembler with output := r.reassembler.output.setError } }

/-! ## What a segment can do -/

/-- **A successful `segment_received`, taken apart.**  The payload is ignored, or
it is pushed at its stream index. -/
theorem segmentReceived_cases {r r' : TCPReceiver} {seg : TCPSegment}
    (h : r.segmentReceived seg = .ok r') :
    r'.isn = r.isnAfter seg ∧ r'.capacity = r.capacity ∧
      ((r'.reassembler = r.reassembler ∧
          ∀ isn, r'.isn = some isn → dataStart seg = isn) ∨
        ∃ isn, r'.isn = some isn ∧ dataStart seg ≠ isn ∧
          r.reassembler.pushSubstring seg.payload (r.streamIndex seg isn) seg.header.fin
            = .ok r'.reassembler) := by
  unfold segmentReceived at h
  cases hisn : r.isnAfter seg with
  | none =>
      rw [hisn] at h
      cases h
      exact ⟨rfl, rfl, Or.inl ⟨rfl, by simp⟩⟩
  | some isn =>
      simp only [hisn] at h
      split at h
      · next heq =>
        cases h
        refine ⟨rfl, rfl, Or.inl ⟨rfl, fun isn' hisn' => ?_⟩⟩
        rw [← heq]
        exact Option.some.inj hisn'
      · next hne =>
        cases hp : r.reassembler.pushSubstring seg.payload (r.streamIndex seg isn)
            seg.header.fin with
        | error fault => simp [hp] at h
        | ok reassembler =>
            simp only [hp, Except.ok.injEq] at h
            subst h
            exact ⟨rfl, rfl, Or.inr ⟨isn, rfl, fun heq => hne heq.symm, hp⟩⟩

/-- The receiver fails only where the reassembler does. -/
theorem segmentReceived_succeeds {r : TCPReceiver} {seg : TCPSegment}
    (h : ∀ isn, dataStart seg ≠ isn → ∃ r', r.reassembler.pushSubstring seg.payload
      (r.streamIndex seg isn) seg.header.fin = .ok r') :
    ∃ r', r.segmentReceived seg = .ok r' := by
  unfold segmentReceived
  cases r.isnAfter seg with
  | none => exact ⟨_, rfl⟩
  | some isn =>
      simp only
      split
      · exact ⟨_, rfl⟩
      · next hne =>
        obtain ⟨r', hr'⟩ := h isn fun heq => hne heq.symm
        exact ⟨_, by rw [hr']⟩

/-! ## The invariant -/

/-- The reassembler is sound, and both keep the same capacity. -/
structure Inv (r : TCPReceiver) : Prop where
  reassembler : r.reassembler.Inv
  capacity_eq : r.streamOut.capacity = r.capacity

/-- Stream indices stay far enough below `2^64` for a segment's sums not to
overflow, and its payload is a string. -/
def InRange (r : TCPReceiver) (seg : TCPSegment) : Prop :=
  r.curIndex < 2 ^ 63 - 2 ^ 32 ∧ seg.WellTyped

instance (r : TCPReceiver) (seg : TCPSegment) : Decidable (r.InRange seg) :=
  inferInstanceAs (Decidable (_ ∧ _))

/-- A new receiver has nothing stored. -/
theorem inv_new {capacity : ℕ} (h : capacity < 2 ^ 64) : (new capacity).Inv :=
  ⟨StreamReassembler.inv_new h, rfl⟩

/-- The window announced is the room in the stream. -/
theorem Inv.windowSize_eq {r : TCPReceiver} (inv : r.Inv) :
    r.windowSize = r.streamOut.remainingCapacity := by
  rw [windowSize, ByteStream.remainingCapacity, inv.capacity_eq]
  rfl

/-- A pushed payload lies in the 64-bit range. -/
theorem InRange.bounds {r : TCPReceiver} {seg : TCPSegment} (range : r.InRange seg)
    {isn : WrappingInt32} (hne : dataStart seg ≠ isn) :
    r.reassembler.curIndex < 2 ^ 64 ∧
      r.streamIndex seg isn + seg.payload.length < 2 ^ 64 := by
  obtain ⟨hcur, hlen⟩ := range
  have hcur64 : r.curIndex < 2 ^ 64 := by omega
  have hlt := unwrap_lt (dataStart seg) isn hcur64
  have hpos := unwrap_pos hcur64 hne
  refine ⟨hcur64, ?_⟩
  rw [streamIndex, sub64_of_le hpos]
  simp only [TCPSegment.WellTyped, maxStringSize] at hlen
  omega

/-- A segment in range keeps the invariant, whatever it says. -/
theorem Inv.segmentReceived {r r' : TCPReceiver} (inv : r.Inv) {seg : TCPSegment}
    (range : r.InRange seg) (h : r.segmentReceived seg = .ok r') : r'.Inv := by
  obtain ⟨-, hcap, ⟨hsame, -⟩ | ⟨isn, -, hne, hp⟩⟩ := segmentReceived_cases h
  · refine ⟨hsame ▸ inv.reassembler, ?_⟩
    rw [streamOut, hsame, hcap]
    exact inv.capacity_eq
  · obtain ⟨hcur, hlen⟩ := range.bounds hne
    refine ⟨inv.reassembler.push hcur hlen hp, ?_⟩
    rw [streamOut, (StreamReassembler.pushSubstring_grown hp).capacity, hcap]
    exact inv.capacity_eq

theorem Inv.readOut {r : TCPReceiver} (inv : r.Inv) (len : ℕ) : (r.readOut len).2.Inv := by
  have heq : (r.readOut len).2.reassembler
      = { r.reassembler with output := r.reassembler.output.popOutput len } := by
    simp only [TCPReceiver.readOut, inv.reassembler.readOut_eq len]
  refine ⟨heq ▸ inv.reassembler.popOutput len, ?_⟩
  rw [streamOut, heq]
  exact inv.capacity_eq

theorem Inv.setError {r : TCPReceiver} (inv : r.Inv) : r.setError.Inv :=
  ⟨inv.reassembler.setError, inv.capacity_eq⟩

/-- A segment undoes nothing, from any state. -/
theorem segmentReceived_grown {r r' : TCPReceiver} {seg : TCPSegment}
    (h : r.segmentReceived seg = .ok r') :
    StreamReassembler.Grown r.reassembler r'.reassembler := by
  obtain ⟨-, -, ⟨hsame, -⟩ | ⟨isn, -, -, hp⟩⟩ := segmentReceived_cases h
  · rw [hsame]
    exact StreamReassembler.grown_refl _
  · exact StreamReassembler.pushSubstring_grown hp

/-- No segment touches the error flag of the stream. -/
theorem segmentReceived_error {r r' : TCPReceiver} {seg : TCPSegment}
    (h : r.segmentReceived seg = .ok r') : r'.streamOut.error = r.streamOut.error := by
  unfold streamOut
  obtain ⟨-, -, ⟨hsame, -⟩ | ⟨isn, -, -, hp⟩⟩ := segmentReceived_cases h
  · rw [hsame]
  · exact StreamReassembler.pushSubstring_error hp

/-- The acknowledged position moves with the write index and the end of stream. -/
theorem ackPosition_mono {r r' : TCPReceiver} (hcur : r.curIndex ≤ r'.curIndex)
    (hended : r.streamOut.inputEnded = true → r'.streamOut.inputEnded = true) :
    r.ackPosition ≤ r'.ackPosition := by
  unfold ackPosition
  split
  · next ended =>
    rw [if_pos (hended ended)]
    omega
  · split <;> omega

/-! ## Runs of a receiver -/

/-- A segment arrives, or the owner reads from the stream. -/
inductive Op where
  | segment (seg : TCPSegment)
  | read (len : ℕ)
  deriving Repr, DecidableEq

/-- One event of a run. -/
def step (r : TCPReceiver) : Op → Except Fault TCPReceiver
  | .segment seg => r.segmentReceived seg
  | .read len => .ok (r.readOut len).2

/-- Every segment arrives in the 64-bit range. -/
def OpInRange (r : TCPReceiver) : Op → Prop
  | .segment seg => r.InRange seg
  | .read _ => True

instance decidableOpInRange (r : TCPReceiver) : ∀ op, Decidable (r.OpInRange op)
  | .segment seg => inferInstanceAs (Decidable (r.InRange seg))
  | .read _ => inferInstanceAs (Decidable True)

/-- Neither event breaks the invariant. -/
theorem Inv.step {r r' : TCPReceiver} {op : Op} (inv : r.Inv) (range : r.OpInRange op)
    (h : r.step op = .ok r') : r'.Inv := by
  cases op with
  | segment seg => exact inv.segmentReceived range h
  | read len =>
      cases h
      exact inv.readOut len

/-- So it holds after any events in range. -/
theorem inv_of_run {capacity : ℕ} (hcap : capacity < 2 ^ 64) {r : TCPReceiver}
    (run : GuardedRun step OpInRange (new capacity) r) : r.Inv :=
  run.invariant Inv (inv_new hcap) fun _ _ _ inv range h => inv.step range h

/-! ## Progress -/

section Progress

variable {r : TCPReceiver} {seg : TCPSegment} {isn : WrappingInt32}

/-- A segment without SYN that carries the next byte.  Its sequence number is that of the
acknowledgment, as long as the stream has not ended. -/
structure CarriesNext (r : TCPReceiver) (seg : TCPSegment) (isn : WrappingInt32) :
    Prop where
  noSyn : seg.header.syn = false
  payload : seg.payload ≠ []
  seqno : seg.header.seqno = wrap (r.curIndex + 1) isn

theorem CarriesNext.dataStart_eq (next : r.CarriesNext seg isn) :
    dataStart seg = wrap (r.curIndex + 1) isn := by
  simp [dataStart, next.noSyn, next.seqno]

theorem CarriesNext.isnAfter_eq (next : r.CarriesNext seg isn) (hisn : r.isn = some isn) :
    r.isnAfter seg = some isn := by
  simp [isnAfter, next.noSyn, hisn]

/-- Its payload is pushed at the write index: the number is next to the checkpoint. -/
theorem CarriesNext.streamIndex_eq (next : r.CarriesNext seg isn)
    (hcur : r.curIndex < 2 ^ 63 - 2 ^ 32) : r.streamIndex seg isn = r.curIndex := by
  rw [streamIndex, next.dataStart_eq,
    unwrap_wrap isn (by omega) (by omega) (by omega) (by omega), sub64_of_le (by omega),
    Nat.add_sub_cancel]

/-- The next bytes are taken, up to the window, unless the filter for invalid
sequence numbers strikes. -/
theorem Inv.next_taken (inv : r.Inv) (range : r.InRange seg) (hisn : r.isn = some isn)
    (next : r.CarriesNext seg isn) (clear : (r.curIndex + 1) % 2 ^ 32 ≠ 0)
    {r' : TCPReceiver} (h : r.segmentReceived seg = .ok r') :
    r.curIndex + min seg.payload.length r.windowSize ≤ r'.curIndex := by
  obtain ⟨hisn', -, ⟨-, hfilter⟩ | ⟨isn', hisn'', hne, hp⟩⟩ := segmentReceived_cases h
  · have hdata := hfilter isn (hisn'.trans (next.isnAfter_eq hisn))
    rw [next.dataStart_eq, wrap_eq_isn_iff] at hdata
    exact absurd hdata clear
  · have heq : isn' = isn := by
      rw [hisn', next.isnAfter_eq hisn] at hisn''
      exact (Option.some.inj hisn'').symm
    subst heq
    obtain ⟨-, hlen⟩ := range.bounds hne
    rw [next.streamIndex_eq range.1] at hlen hp
    rw [inv.windowSize_eq]
    exact inv.reassembler.push_progress hlen hp

/-- The filter drops a segment whose sequence number has come around to the
initial one. -/
theorem next_dropped (hisn : r.isn = some isn) (next : r.CarriesNext seg isn)
    (around : (r.curIndex + 1) % 2 ^ 32 = 0) : r.segmentReceived seg = .ok r := by
  have hdata : isn = dataStart seg := by
    rw [next.dataStart_eq, wrap_eq_isn_iff.mpr around]
  simp only [segmentReceived, next.isnAfter_eq hisn, if_pos hdata]
  rw [← hisn]

end Progress

/-- **Progress.**  In every reachable state with an open window, a segment that
carries the next byte advances the write index by all it carries up to the window,
if and only if the next absolute sequence number is not a multiple of `2^32`. -/
theorem receiver_progress_iff {capacity : ℕ} (hcap : capacity < 2 ^ 64) {r : TCPReceiver}
    (run : GuardedRun step OpInRange (new capacity) r) {seg : TCPSegment}
    (range : r.InRange seg) {isn : WrappingInt32} (hisn : r.isn = some isn)
    (window : 0 < r.windowSize) (noSyn : seg.header.syn = false)
    (payload : seg.payload ≠ []) (hseqno : seg.header.seqno = wrap (r.curIndex + 1) isn) :
    (∀ r', r.segmentReceived seg = .ok r' →
      r.curIndex + min seg.payload.length r.windowSize ≤ r'.curIndex) ↔
        (r.curIndex + 1) % 2 ^ 32 ≠ 0 := by
  have next : r.CarriesNext seg isn := ⟨noSyn, payload, hseqno⟩
  constructor
  · intro progress around
    have := progress r (next_dropped hisn next around)
    have := List.length_pos_iff.mpr payload
    omega
  · intro clear r' h
    exact (inv_of_run hcap run).next_taken range hisn next clear h

/-- The first data segment after the SYN. -/
theorem receiver_progress_iff_first :
    ∃ r, execute step (new 4) [.segment { header := { syn := true } }] = .ok r ∧
      ((∀ r', r.segmentReceived { header := { seqno := ⟨1⟩ }, payload := [97, 98] } = .ok r' →
        r.curIndex + min 2 r.windowSize ≤ r'.curIndex) ↔ (r.curIndex + 1) % 2 ^ 32 ≠ 0) := by
  obtain ⟨r, done, hisn, hcur, hwin⟩ : ∃ r,
      execute step (new 4) [.segment { header := { syn := true } }] = .ok r ∧
        r.isn = some ⟨0⟩ ∧ r.curIndex = 0 ∧ r.windowSize = 4 := ⟨_, rfl, by decide⟩
  have hcap : 4 < 2 ^ 64 := by decide
  refine ⟨r, done, receiver_progress_iff hcap (GuardedRun.of_execute (by decide) done)
    ⟨by omega, by decide⟩ hisn (by omega) rfl (by decide) ?_⟩
  rw [hcur]
  decide

/-! ### A stream of `2^32 - 1` bytes -/

/-- A receiver with room for one byte that has received and delivered `n` bytes,
the initial sequence number being `0`. -/
def afterBytes (n : ℕ) : TCPReceiver :=
  { reassembler :=
      { output := { capacity := 1, bytesRead := n, bytesWritten := n }
        capacity := 1
        curIndex := n }
    isn := some ⟨0⟩
    capacity := 1 }

/-- A one-byte segment for stream index `n`. -/
def byteSegment (n : ℕ) : TCPSegment :=
  { header := { seqno := wrap (n + 1) ⟨0⟩ }, payload := [0] }

theorem byteSegment_carriesNext (n : ℕ) :
    (afterBytes n).CarriesNext (byteSegment n) ⟨0⟩ :=
  ⟨rfl, by simp [byteSegment], rfl⟩

/-- One more byte is received and read. -/
theorem afterBytes_succ {n : ℕ} (h : n + 1 < 2 ^ 32) :
    ∃ r, (afterBytes n).segmentReceived (byteSegment n) = .ok r ∧
      (r.readOut 1).2 = afterBytes (n + 1) := by
  have next := byteSegment_carriesNext n
  have hcur : (afterBytes n).curIndex = n := rfl
  have hdata : (⟨0⟩ : WrappingInt32) ≠ dataStart (byteSegment n) := by
    rw [next.dataStart_eq, ne_comm, ne_eq, wrap_eq_isn_iff]
    omega
  have hindex : (afterBytes n).streamIndex (byteSegment n) ⟨0⟩ = n :=
    next.streamIndex_eq (by omega)
  have hadd : add64 n 1 = n + 1 := add64_of_lt (by omega)
  have hrem : sub64 1 0 = 1 := by decide
  obtain ⟨q, hpush, hq⟩ : ∃ q, (afterBytes n).reassembler.pushSubstring [0] n false = .ok q ∧
      (q.readOut 1).2 = (afterBytes (n + 1)).reassembler := by
    simp [StreamReassembler.pushSubstring, afterBytes, ByteStream.remainingCapacity, hrem,
      hadd, StreamReassembler.trim, StreamReassembler.clip, StreamReassembler.scan,
      StreamReassembler.settle, ByteStream.write, StreamReassembler.out,
      StreamReassembler.readOut, ByteStream.read, ByteStream.popOutput, ByteStream.bufferSize]
  refine ⟨{ afterBytes n with reassembler := q }, ?_, ?_⟩
  · simp only [segmentReceived, next.isnAfter_eq rfl, if_neg hdata, hindex]
    simp only [byteSegment, hpush]
    rfl
  · rw [readOut, hq]
    rfl

/-- The state after `n` bytes is reached by `n` segments and reads, by induction and not by
evaluation. -/
theorem afterBytes_reached {n : ℕ} (h : n < 2 ^ 32) :
    GuardedRun step OpInRange (new 1) (afterBytes n) := by
  induction n with
  | zero =>
      have done : execute step (new 1) [.segment { header := { syn := true } }]
          = .ok (afterBytes 0) := rfl
      exact GuardedRun.of_execute (by decide) done
  | succ n ih =>
      obtain ⟨r, received, hread⟩ := afterBytes_succ h
      have hcur : (afterBytes n).curIndex = n := rfl
      have range : (afterBytes n).OpInRange (.segment (byteSegment n)) :=
        ⟨by omega, by simp [TCPSegment.WellTyped, byteSegment, maxStringSize]⟩
      have read : step r (.read 1) = .ok (afterBytes (n + 1)) := congrArg Except.ok hread
      have always : r.OpInRange (.read 1) := trivial
      exact ((ih (by omega)).tail range received).tail always read

/-- **The stream stops just before byte `2^32`.**  After `2^32 - 1` bytes, received
and read one at a time, the sequence number of the next byte is the initial one
again, and the segment that carries it is dropped. -/
theorem progress_stalls_after_wrap :
    ∃ r seg r', GuardedRun step OpInRange (new 1) r ∧ r.isn = some ⟨0⟩ ∧
      0 < r.windowSize ∧ seg.header.syn = false ∧ seg.payload ≠ [] ∧
      seg.header.seqno = wrap (r.curIndex + 1) ⟨0⟩ ∧ r.segmentReceived seg = .ok r' ∧
      ¬ (r.curIndex + min seg.payload.length r.windowSize ≤ r'.curIndex) := by
  have next := byteSegment_carriesNext (2 ^ 32 - 1)
  have dropped := next_dropped rfl next (by decide)
  have reached := afterBytes_reached (show 2 ^ 32 - 1 < 2 ^ 32 by decide)
  have hwin : (afterBytes (2 ^ 32 - 1)).windowSize = 1 := by decide
  refine ⟨_, _, _, reached, rfl, by omega, next.noSyn, next.payload, next.seqno, dropped, ?_⟩
  rw [hwin]
  simp [byteSegment]

/-! ## Stability of the initial sequence number -/

/-- A segment with SYN carries the sequence number `isn`. -/
def RepeatsSyn (isn : WrappingInt32) : TCPReceiver → Op → Prop
  | _, .segment seg => seg.header.syn = true → seg.header.seqno = isn
  | _, .read _ => True

instance decidableRepeatsSyn (isn : WrappingInt32) (r : TCPReceiver) :
    ∀ op, Decidable (RepeatsSyn isn r op)
  | .segment _ => inferInstanceAs (Decidable (_ → _))
  | .read _ => inferInstanceAs (Decidable True)

/-- One step keeps the initial sequence number and the acknowledged position. -/
theorem isn_stable_step {isn : WrappingInt32} {r r' : TCPReceiver} {op : Op}
    (repeats : RepeatsSyn isn r op) (h : r.step op = .ok r') (hisn : r.isn = some isn) :
    r'.isn = some isn ∧ r.ackPosition ≤ r'.ackPosition := by
  cases op with
  | segment seg =>
      have hisn' := (segmentReceived_cases h).1
      have grown := segmentReceived_grown h
      refine ⟨?_, ackPosition_mono grown.curIndex_le grown.ended⟩
      rw [hisn', isnAfter]
      split
      · next syn => rw [repeats syn]
      · exact hisn
  | read len =>
      cases h
      exact ⟨hisn, ackPosition_mono le_rfl id⟩

/-- **The initial sequence number is stable** from any state in which it is set,
over every later run whose SYNs repeat it: the acknowledgment number stays relative
to it, and the acknowledged position never moves backwards. -/
theorem isn_stable {isn : WrappingInt32} {r₀ r : TCPReceiver}
    (first : r₀.isn = some isn) (run : GuardedRun step (RepeatsSyn isn) r₀ r) :
    r.isn = some isn ∧
      r.ackno = some (wrap (r.curIndex + 1 + (if r.streamOut.inputEnded then 1 else 0)) isn) ∧
      r₀.ackPosition ≤ r.ackPosition := by
  have stable : r₀.isn = some isn → r.isn = some isn ∧ r₀.ackPosition ≤ r.ackPosition := by
    refine run.progress (fun s t => s.isn = some isn → t.isn = some isn ∧
      s.ackPosition ≤ t.ackPosition) (fun s h => ⟨h, le_rfl⟩) ?_ ?_
    · intro s t u hst htu hs
      obtain ⟨ht, hle⟩ := hst hs
      obtain ⟨hu, hle'⟩ := htu ht
      exact ⟨hu, hle.trans hle'⟩
    · intro s op s' repeats h hs
      exact isn_stable_step repeats h hs
  obtain ⟨hisn, hle⟩ := stable first
  refine ⟨hisn, ?_, hle⟩
  rw [ackno, hisn, ackPosition]

/-- A duplicate of the first SYN after data. -/
theorem isn_stable_duplicate :
    ∃ r₀ r, execute step (new 4) [.segment { header := { syn := true, seqno := ⟨7⟩ } }] = .ok r₀ ∧
      execute step r₀ [.segment { header := { seqno := ⟨8⟩ }, payload := [97] },
        .segment { header := { syn := true, seqno := ⟨7⟩ } }] = .ok r ∧
      r.isn = some ⟨7⟩ := by
  obtain ⟨r₀, done₀, first, r, done, admitted⟩ : ∃ r₀,
      execute step (new 4) [.segment { header := { syn := true, seqno := ⟨7⟩ } }] = .ok r₀ ∧
        r₀.isn = some ⟨7⟩ ∧ ∃ r,
      execute step r₀ [.segment { header := { seqno := ⟨8⟩ }, payload := [97] },
        .segment { header := { syn := true, seqno := ⟨7⟩ } }] = .ok r ∧
      Admitted step (RepeatsSyn ⟨7⟩) r₀ [.segment { header := { seqno := ⟨8⟩ }, payload := [97] },
        .segment { header := { syn := true, seqno := ⟨7⟩ } }] :=
    ⟨_, rfl, rfl, _, rfl, by decide⟩
  exact ⟨r₀, r, done₀, done, (isn_stable first (GuardedRun.of_execute admitted done)).1⟩

/-- **A second SYN with another sequence number replaces the first.**  The source takes the number
of every SYN. The bytes that are assembled stay where they are, and all later segments are
numbered from the new one. -/
theorem second_syn_moves_isn :
    ∃ r₀ r, GuardedRun step (fun _ _ => True) (new 4) r₀ ∧ r₀.isn = some ⟨0⟩ ∧
      GuardedRun step (fun _ _ => True) r₀ r ∧ r.isn = some ⟨5⟩ ∧
      r.ackno ≠ some (wrap (r.curIndex + 1 + (if r.streamOut.inputEnded then 1 else 0)) ⟨0⟩) := by
  obtain ⟨r₀, done₀, first, r, done, second, moved⟩ : ∃ r₀,
      execute step (new 4) [.segment { header := { syn := true } }] = .ok r₀ ∧
        r₀.isn = some ⟨0⟩ ∧ ∃ r,
      execute step r₀ [.segment { header := { syn := true, seqno := ⟨5⟩ } }] = .ok r ∧
        r.isn = some ⟨5⟩ ∧
        r.ackno ≠ some (wrap (r.curIndex + 1 + (if r.streamOut.inputEnded then 1 else 0)) ⟨0⟩) :=
    ⟨_, rfl, rfl, _, rfl, rfl, by decide⟩
  have anything : ∀ s ops, Admitted step (fun _ _ => True) s ops :=
    admitted_of_forall fun _ _ => trivial
  exact ⟨r₀, r, GuardedRun.of_execute (anything _ _) done₀, first,
    GuardedRun.of_execute (anything _ _) done, second, moved⟩

end TCPReceiver

end Sponge
