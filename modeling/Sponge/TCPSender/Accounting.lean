import Sponge.Library.GuardedRun
import Sponge.Library.Layout
import Sponge.TCPSender

/-!
# What the sender has in flight

The sender keeps five counters beside its queue of outstanding segments.  `Inv`
ties them together: the outstanding segments are laid out in absolute sequence
space, each with the bytes of the input stream at its own place (`At`), from a
start at or below `_una_seqno` up to `_next_seqno`.

`Filled` is what `fill_window` does to the sender, as one structure that composes
(`Filled.trans`), so the loop is a plain induction over its passes; `popAcked_spec`
is what the loop of `ack_received` does to a layout.

### Positions instead of counters

Five counters and a queue could be tied together by equations between sums.  A layout does
it once: the queue covers the interval from `first` to `_next_seqno`, each segment at its
own place, and the sums follow from where the interval begins and ends.  Popping
acknowledged segments moves `first`; filling moves the other end.

`first` is not a counter of the source.  A segment is released only when all of it is
acknowledged, so `_una_seqno` may lie inside the first segment, and `UnaAt` says how far.

### Two layers of invariant

`Synced` is about the sender and its stream and survives acknowledgments of any kind, since
they touch neither.  `Inv` adds what is in flight, and to keep it, `_next_seqno` must fit 64
bits: the loop of `ack_received` unwraps the numbers of the outstanding segments, and they
come back as their places because no more than a 16-bit window of them is in flight, far
less than half a turn (`acked_iff`).

### What the loop needs

`Ready` is the invariant of the loop, and its last field is load-bearing: the SYN takes all
of the window, or there is nothing to send with it, so the pass that sends it is the last.
Otherwise the segment object would be passed on with its SYN flag set, and the field `noSyn`
would fail for the next pass.
-/

namespace Sponge

open Layouts Runs

namespace TCPSender

/-- The segment starts at absolute sequence number `a` and carries the bytes of `W`
at its place: the SYN is number `0`, and byte `i` of the stream is number `i + 1`. -/
structure At (W : List UInt8) (isn : WrappingInt32) (a : ℕ) (seg : TCPSegment) : Prop where
  seqno : seg.header.seqno = wrap a isn
  syn_iff : seg.header.syn = true ↔ a = 0
  payload : seg.payload = [] ∨ (0 < a ∧ seg.payload <+: W.drop (a - 1))
  payload_le : seg.payload.length ≤ TCPConfig.maxPayloadSize
  occupied : 0 < seg.lengthInSequenceSpace
  /-- The acknowledgment is left to the connection. -/
  noAck : seg.header.ack = false

/-- More input does not disturb what was sent. -/
theorem At.grow {W : List UInt8} {isn : WrappingInt32} {a : ℕ} {seg : TCPSegment}
    (h : At W isn a seg) (data : List UInt8) : At (W ++ data) isn a seg where
  seqno := h.seqno
  syn_iff := h.syn_iff
  payload := by
    refine h.payload.imp_right fun ⟨hpos, hpre⟩ => ⟨hpos, hpre.trans ?_⟩
    rw [List.drop_append]
    exact List.prefix_append _ _
  payload_le := h.payload_le
  occupied := h.occupied
  noAck := h.noAck

/-- Segments laid out one after the other, each carrying the bytes at its place. -/
def Placed (W : List UInt8) (isn : WrappingInt32) : ℕ → List TCPSegment → ℕ → Prop :=
  LaidOut TCPSegment.lengthInSequenceSpace (At W isn)

/-- The input stream holds the part of `W` that has not been read. -/
structure Buffers (W : List UInt8) (b : ByteStream) : Prop where
  inv : b.Inv
  rest : W.drop b.bytesRead = b.str
  read_le : b.bytesRead ≤ W.length

/-- Reading moves the position in `W`. -/
theorem Buffers.consumed {W : List UInt8} {b b' : ByteStream} {bytes : List UInt8}
    (h : Buffers W b) (consumed : b.Consumed bytes b') : Buffers W b' := by
  have hrest : W.drop b.bytesRead = bytes ++ b'.str := h.rest.trans consumed.str_eq
  refine ⟨consumed.inv, ?_, ?_⟩
  · rw [consumed.bytesRead_eq, ← List.drop_drop, hrest, List.drop_left]
  · have hlen := congrArg List.length hrest
    have := h.read_le
    rw [List.length_drop, List.length_append] at hlen
    rw [consumed.bytesRead_eq]
    omega

/-- `_next_seqno` counts the SYN, the bytes read from the stream and the FIN. The source keeps
these counts apart; tied together, they give each byte of the stream its sequence number. -/
structure Positioned (s : TCPSender) : Prop where
  unsent : s.nextSeqno = 0 → s.stream.bytesRead = 0 ∧ s.isTransmissionEnded = false
  sent : s.nextSeqno ≠ 0 →
    s.nextSeqno = 1 + s.stream.bytesRead + (if s.isTransmissionEnded then 1 else 0)

/-! ## `fill_window` -/

/-- The effect of filling the window with the segments `new`.  It is stated for a pass, for the
loop and for the whole of `fill_window` alike, so that the loop is settled by composing passes.
The frame lists what may change; all else is equal by it. -/
structure Filled (W : List UInt8) (s : TCPSender) (new : List TCPSegment) (s' : TCPSender) :
    Prop where
  segmentsOut : s'.segmentsOut = s.segmentsOut ++ new
  outstanding : s'.outstandingSegments = s.outstandingSegments ++ new
  placed : Placed W s.isn s.nextSeqno new s'.nextSeqno
  flight : s'.bytesInFlight + s.nextSeqno = s.bytesInFlight + s'.nextSeqno
  consumed : s.stream.Consumed (new.flatMap TCPSegment.payload) s'.stream
  positioned : s'.Positioned
  /-- Only the last segment may carry the FIN. -/
  finLast : new.Pairwise fun seg _ => seg.header.fin = false
  ended : s'.isTransmissionEnded
    = (s.isTransmissionEnded || new.any fun seg => seg.header.fin)
  /-- A FIN is sent only when the stream is closed and all of it has been sent. -/
  finished : (∃ seg ∈ new, seg.header.fin = true) →
    s'.stream.inputIsEnd = true ∧ s'.stream.str = []
  /-- Nothing is sent after a FIN. -/
  stopped : s.isTransmissionEnded = true → new = []
  frame : s' = { s with
    segmentsOut := s'.segmentsOut
    outstandingSegments := s'.outstandingSegments
    nextSeqno := s'.nextSeqno
    bytesInFlight := s'.bytesInFlight
    stream := s'.stream
    timer := s'.timer
    isTransmissionEnded := s'.isTransmissionEnded }

theorem Filled.isn_eq {W : List UInt8} {s s' : TCPSender} {new : List TCPSegment}
    (h : Filled W s new s') : s'.isn = s.isn := by
  rw [h.frame]

/-- Nothing was sent. -/
theorem filled_refl {W : List UInt8} {s : TCPSender} (stream : s.stream.Inv)
    (positioned : s.Positioned) : Filled W s [] s where
  segmentsOut := (List.append_nil _).symm
  outstanding := (List.append_nil _).symm
  placed := rfl
  flight := rfl
  consumed := stream.consumed_nil
  positioned := positioned
  finLast := List.Pairwise.nil
  ended := by simp
  finished := by simp
  stopped := fun _ => rfl
  frame := rfl

/-- **Filling composes**, as long as the first part sent no FIN. With a FIN there is no second
part, since nothing is sent after it. -/
theorem Filled.trans {W : List UInt8} {s s' s'' : TCPSender} {new new' : List TCPSegment}
    (h : Filled W s new s') (h' : Filled W s' new' s'')
    (noFin : ∀ seg ∈ new, seg.header.fin = false) : Filled W s (new ++ new') s'' where
  segmentsOut := by rw [h'.segmentsOut, h.segmentsOut, List.append_assoc]
  outstanding := by rw [h'.outstanding, h.outstanding, List.append_assoc]
  placed := LaidOut.append h.placed (h.isn_eq ▸ h'.placed)
  flight := by
    have := h.flight
    have := h'.flight
    omega
  consumed := by
    rw [List.flatMap_append]
    exact h.consumed.trans h'.consumed
  positioned := h'.positioned
  finLast := List.pairwise_append.mpr ⟨h.finLast, h'.finLast, fun seg hseg _ _ => noFin seg hseg⟩
  ended := by rw [h'.ended, h.ended, List.any_append, Bool.or_assoc]
  finished := by
    rintro ⟨seg, hseg, hfin⟩
    rcases List.mem_append.mp hseg with hseg | hseg
    · rw [noFin seg hseg] at hfin
      cases hfin
    · exact h'.finished ⟨seg, hseg, hfin⟩
  stopped := by
    intro ended
    have ended' : s'.isTransmissionEnded = true := by rw [h.ended, ended, Bool.true_or]
    rw [h.stopped ended, h'.stopped ended', List.append_nil]
  frame := by rw [h'.frame, h.frame]

/-! ### One pass of the loop -/

/-- The pass before `emit`: the segment is cut off the stream. -/
def cut (window : ℕ) (s : TCPSender) (seg : TCPSegment) : TCPSender × TCPSegment :=
  finish window (load window (s.stamp seg).1 (s.stamp seg).2).1
    (load window (s.stamp seg).1 (s.stamp seg).2).2

theorem fillStep_eq (window : ℕ) (s : TCPSender) (seg : TCPSegment) :
    s.fillStep window seg = ((s.cut window seg).1.emit (s.cut window seg).2,
      (s.cut window seg).2) := rfl

/-- The sender `t` after the segment `seg` has been cut off the stream of `s`.  This is a pass up
to the point where the source decides whether the segment is to be sent at all. -/
structure Cut (W : List UInt8) (s : TCPSender) (seg : TCPSegment) (t : TCPSender) : Prop where
  seqno : seg.header.seqno = wrap s.nextSeqno s.isn
  syn_iff : seg.header.syn = true ↔ s.nextSeqno = 0
  payload : seg.payload = [] ∨ (0 < s.nextSeqno ∧ seg.payload <+: W.drop (s.nextSeqno - 1))
  payload_le : seg.payload.length ≤ TCPConfig.maxPayloadSize
  noAck : seg.header.ack = false
  next : t.nextSeqno = s.nextSeqno + seg.lengthInSequenceSpace
  flight : t.bytesInFlight = s.bytesInFlight + seg.lengthInSequenceSpace
  consumed : s.stream.Consumed seg.payload t.stream
  positioned : t.Positioned
  running : s.isTransmissionEnded = false
  ended : t.isTransmissionEnded = (s.isTransmissionEnded || seg.header.fin)
  finished : seg.header.fin = true → t.stream.inputIsEnd = true ∧ t.stream.str = []
  frame : t = { s with
    nextSeqno := t.nextSeqno
    bytesInFlight := t.bytesInFlight
    stream := t.stream
    isTransmissionEnded := t.isTransmissionEnded }

/-- An empty segment is not sent; any other one is. -/
theorem Cut.emit {W : List UInt8} {s t : TCPSender} {seg : TCPSegment} (h : Cut W s seg t) :
    ∃ new, Filled W s new (t.emit seg) ∧ ∀ x ∈ new, x = seg := by
  unfold TCPSender.emit
  split
  · next occupied =>
    -- the test of the source is that the segment occupies sequence numbers
    have hpos : 0 < seg.lengthInSequenceSpace := by
      unfold TCPSegment.lengthInSequenceSpace
      rcases occupied with hlen | hsyn | hfin
      · omega
      · rw [if_pos hsyn]
        omega
      · rw [if_pos hfin]
        omega
    refine ⟨[seg], ⟨?_, ?_, ⟨⟨h.seqno, h.syn_iff, h.payload, h.payload_le, hpos,
      h.noAck⟩, h.next.symm⟩,
      ?_, ?_, ?_, by simp, ?_, ?_, ?_, ?_⟩, by simp⟩
    · rw [h.frame]
    · rw [h.frame]
    · have := h.next
      have := h.flight
      simp only
      omega
    · simpa using h.consumed
    · exact ⟨h.positioned.unsent, h.positioned.sent⟩
    · simpa using h.ended
    · simpa using h.finished
    · simp [h.running]
    · rw [h.frame]
  · next empty =>
    have hempty : seg.payload = [] ∧ seg.header.syn = false ∧ seg.header.fin = false := by
      simpa [not_or] using empty
    have hlen : seg.lengthInSequenceSpace = 0 := by
      simp [TCPSegment.lengthInSequenceSpace, hempty]
    have hnext := h.next
    have hflight := h.flight
    rw [hlen, Nat.add_zero] at hnext hflight
    refine ⟨[], ⟨?_, ?_, hnext.symm, ?_, ?_, h.positioned, List.Pairwise.nil, ?_, by simp,
      fun _ => rfl, ?_⟩, by simp⟩
    · rw [h.frame, List.append_nil]
    · rw [h.frame, List.append_nil]
    · omega
    · simpa [hempty.1] using h.consumed
    · simpa [hempty.2.2] using h.ended
    · rw [h.frame]

/-- What holds when the loop of `fill_window` is entered with the segment object `seg`.  The
source reuses one object for all passes and never clears its flags, so that they are clear on
entry is part of what has to hold. -/
structure Ready (W : List UInt8) (window : ℕ) (s : TCPSender) (seg : TCPSegment) : Prop where
  buffers : Buffers W s.stream
  positioned : s.Positioned
  running : s.isTransmissionEnded = false
  room : s.bytesInFlight < window
  noSyn : seg.header.syn = false
  noFin : seg.header.fin = false
  noAck : seg.header.ack = false
  /-- The SYN takes all of the window, or there is nothing to send with it. -/
  synAlone : s.nextSeqno = 0 → window = 1 ∨ s.stream.str = []

/-- The SYN of a sender that has sent nothing counts one. -/
def synCount (s : TCPSender) : ℕ := if s.nextSeqno = 0 then 1 else 0

/-- Numbering a segment, with the SYN as a number instead of a branch. -/
theorem stamp_eq (s : TCPSender) {seg : TCPSegment} (noSyn : seg.header.syn = false) :
    s.stamp seg = ({ s with
        nextSeqno := s.nextSeqno + s.synCount
        bytesInFlight := s.bytesInFlight + s.synCount },
      { seg with header := { seg.header with
        seqno := wrap s.nextSeqno s.isn
        syn := decide (s.nextSeqno = 0) } }) := by
  unfold stamp synCount
  split
  · next unsent => simp [unsent]
  · next sent => simp [sent, noSyn]

/-- What a pass asks of the stream. -/
def readSize (window : ℕ) (s : TCPSender) : ℕ :=
  min (window - (s.bytesInFlight + s.synCount)) TCPConfig.maxPayloadSize

/-- The first two parts of a pass, without machine arithmetic. -/
theorem load_eq {W : List UInt8} {window : ℕ} {s : TCPSender} {seg : TCPSegment}
    (ready : Ready W window s seg) :
    load window (s.stamp seg).1 (s.stamp seg).2 =
      ({ s with
          nextSeqno := s.nextSeqno + s.synCount + (s.stream.str.take (s.readSize window)).length
          bytesInFlight :=
            s.bytesInFlight + s.synCount + (s.stream.str.take (s.readSize window)).length
          stream := s.stream.popOutput (s.readSize window) },
        { header := { seg.header with
            seqno := wrap s.nextSeqno s.isn
            syn := decide (s.nextSeqno = 0) }
          payload := s.stream.str.take (s.readSize window) }) := by
  have hroom := ready.room
  have hsyn : s.synCount ≤ 1 := by
    unfold synCount
    split <;> omega
  have hsub : sub64 window (s.bytesInFlight + s.synCount)
      = window - (s.bytesInFlight + s.synCount) := sub64_of_le (by omega)
  rw [stamp_eq s ready.noSyn]
  simp only [load, hsub, ready.buffers.inv.read_eq]
  rfl

/-- Sequence numbers count the SYN and the bytes read. -/
theorem Ready.count_eq {W : List UInt8} {window : ℕ} {s : TCPSender} {seg : TCPSegment}
    (ready : Ready W window s seg) : s.nextSeqno + s.synCount = 1 + s.stream.bytesRead := by
  unfold synCount
  split
  · next unsent => rw [unsent, (ready.positioned.unsent unsent).1]
  · next sent => simpa [ready.running] using ready.positioned.sent sent

/-- The payload of a pass is what comes next in `W`; there is none beside a SYN. -/
theorem Ready.payload_at {W : List UInt8} {window : ℕ} {s : TCPSender} {seg : TCPSegment}
    (ready : Ready W window s seg) :
    s.stream.str.take (s.readSize window) = [] ∨
      (0 < s.nextSeqno ∧ s.stream.str.take (s.readSize window) <+: W.drop (s.nextSeqno - 1)) := by
  have hcount := ready.count_eq
  by_cases unsent : s.nextSeqno = 0
  · refine Or.inl ?_
    rcases ready.synAlone unsent with hwin | hempty
    · have : s.readSize window = 0 := by
        have : s.synCount = 1 := if_pos unsent
        simp only [readSize]
        omega
      rw [this, List.take_zero]
    · rw [hempty, List.take_nil]
  · have : s.synCount = 0 := if_neg unsent
    refine Or.inr ⟨Nat.pos_of_ne_zero unsent, ?_⟩
    rw [show s.nextSeqno - 1 = s.stream.bytesRead by omega, ready.buffers.rest]
    exact List.take_prefix _ _

/-- The first two parts of a pass cut a segment without FIN. -/
theorem Ready.load {W : List UInt8} {window : ℕ} {s : TCPSender} {seg : TCPSegment}
    (ready : Ready W window s seg) {t : TCPSender} {loaded : TCPSegment}
    (hload : TCPSender.load window (s.stamp seg).1 (s.stamp seg).2 = (t, loaded)) :
    Cut W s loaded t ∧ loaded.header.fin = false ∧ t.nextSeqno ≠ 0 ∧
      t.bytesInFlight ≤ window := by
  have hcount := ready.count_eq
  have hroom := ready.room
  have hsyn : (if s.nextSeqno = 0 then 1 else 0) = s.synCount := rfl
  have hsyn_le : s.synCount ≤ 1 := by
    unfold synCount
    split <;> omega
  have hpayload := ready.payload_at
  have consumed := ready.buffers.inv.consumed_popOutput (s.readSize window)
  have hread := consumed.bytesRead_eq
  have hle : (s.stream.str.take (s.readSize window)).length ≤ s.readSize window :=
    List.length_take_le _ _
  have hsize : s.readSize window ≤ TCPConfig.maxPayloadSize := Nat.min_le_right _ _
  have hfits : s.readSize window ≤ window - (s.bytesInFlight + s.synCount) := Nat.min_le_left _ _
  rw [load_eq ready, Prod.mk.injEq] at hload
  obtain ⟨rfl, rfl⟩ := hload
  -- from here on the payload is any list that was consumed and fits
  generalize s.stream.str.take (s.readSize window) = bytes at *
  have hlen : TCPSegment.lengthInSequenceSpace
      { header := { seg.header with
          seqno := wrap s.nextSeqno s.isn
          syn := decide (s.nextSeqno = 0) }
        payload := bytes } = s.synCount + bytes.length := by
    simp only [TCPSegment.lengthInSequenceSpace, decide_eq_true_eq, hsyn, ready.noFin,
      Bool.false_eq_true, if_false]
    omega
  refine ⟨⟨rfl, by simp, hpayload, hle.trans hsize, ready.noAck, ?_, ?_, consumed, ⟨?_, ?_⟩,
    ready.running, ?_, ?_, rfl⟩, ready.noFin, ?_, ?_⟩
  · rw [hlen, ← Nat.add_assoc]
  · rw [hlen, ← Nat.add_assoc]
  · intro unsent
    simp only at unsent
    omega
  · intro _
    simp only [hread, ready.running, Bool.false_eq_true, if_false]
    omega
  · simp [ready.noFin]
  · simp [ready.noFin]
  · simp only
    omega
  · simp only
    omega

/-- The third part may add a FIN, if there is room for it. -/
theorem Cut.finish {W : List UInt8} {window : ℕ} {s t : TCPSender} {seg : TCPSegment}
    (h : Cut W s seg t) (noFin : seg.header.fin = false) (sent : t.nextSeqno ≠ 0)
    (fits : t.bytesInFlight ≤ window) :
    Cut W s (t.finish window seg).2 (t.finish window seg).1 ∧
      (t.finish window seg).1.bytesInFlight ≤ window := by
  unfold TCPSender.finish
  split
  · next last =>
    obtain ⟨hended, hspace⟩ := last
    simp only [Bool.and_eq_true, h.consumed.inv.eof_iff] at hended
    rw [sub64_of_le fits] at hspace
    have hlen : TCPSegment.lengthInSequenceSpace
        { seg with header := { seg.header with fin := true } }
          = seg.lengthInSequenceSpace + 1 := by
      simp [TCPSegment.lengthInSequenceSpace, noFin]
    have running : t.isTransmissionEnded = false := by
      rw [h.ended, h.running, noFin, Bool.or_false]
    refine ⟨⟨h.seqno, h.syn_iff, h.payload, h.payload_le, h.noAck, ?_, ?_, h.consumed,
      ⟨?_, ?_⟩, h.running, ?_, fun _ => hended.2, ?_⟩, ?_⟩
    · rw [hlen, h.next, Nat.add_assoc]
    · rw [hlen, h.flight, Nat.add_assoc]
    · intro unsent
      exact absurd unsent (Nat.succ_ne_zero _)
    · intro _
      have hnext := h.positioned.sent sent
      rw [running, if_neg Bool.false_ne_true, Nat.add_zero] at hnext
      rw [if_pos rfl, hnext]
    · rw [Bool.or_true]
    · rw [h.frame]
    · show t.bytesInFlight + 1 ≤ window
      omega
  · exact ⟨h, fits⟩

/-- **One pass cuts a segment** that fits the window.  The subtractions of the pass are exact
here, which is what makes its counters right. -/
theorem Ready.cut {W : List UInt8} {window : ℕ} {s : TCPSender} {seg : TCPSegment}
    (ready : Ready W window s seg) :
    Cut W s (s.cut window seg).2 (s.cut window seg).1 ∧
      (s.cut window seg).1.bytesInFlight ≤ window := by
  obtain ⟨cut, noFin, sent, fits⟩ := ready.load rfl
  exact cut.finish noFin sent fits

/-- A pass that is followed by another sent no FIN and leaves the loop ready. -/
theorem Ready.next {W : List UInt8} {window : ℕ} {s : TCPSender} {seg : TCPSegment}
    (ready : Ready W window s seg) (more : (s.fillStep window seg).1.MoreToFill window) :
    Ready W window (s.fillStep window seg).1 (s.fillStep window seg).2 := by
  obtain ⟨cut, fits⟩ := ready.cut
  rw [fillStep_eq] at more ⊢
  obtain ⟨hbuffered, hspace⟩ := more
  rw [emit_stream] at hbuffered
  rw [emit_bytesInFlight] at hspace
  have buffers := ready.buffers.consumed cut.consumed
  have hstr : (s.cut window seg).1.stream.str ≠ [] := fun hempty => by
    rw [buffers.inv.bufferEmpty_iff.mpr hempty] at hbuffered
    cases hbuffered
  have hroom : (s.cut window seg).1.bytesInFlight < window := by
    refine lt_of_le_of_ne fits fun hfull => hspace ?_
    rw [hfull, sub64_of_le le_rfl, Nat.sub_self]
  have noFin : (s.cut window seg).2.header.fin = false :=
    Bool.eq_false_iff.mpr fun hfin => hstr (cut.finished hfin).2
  -- a SYN leaves no room or no bytes
  have hsent : s.nextSeqno ≠ 0 := by
    intro unsent
    rcases ready.synAlone unsent with hwin | hempty
    · have := cut.flight
      have hsyn := cut.syn_iff.mpr unsent
      simp only [TCPSegment.lengthInSequenceSpace, hsyn, if_true] at this
      omega
    · have := cut.consumed.str_eq
      rw [hempty, eq_comm, List.append_eq_nil_iff] at this
      exact hstr this.2
  refine ⟨?_, ⟨?_, ?_⟩, ?_, ?_, ?_, noFin, cut.noAck, ?_⟩
  · rw [emit_stream]
    exact buffers
  · simpa using cut.positioned.unsent
  · simpa using cut.positioned.sent
  · rw [emit_isTransmissionEnded, cut.ended, ready.running, noFin]
    rfl
  · rw [emit_bytesInFlight]
    exact hroom
  · exact Bool.eq_false_iff.mpr fun hsyn => hsent (cut.syn_iff.mp hsyn)
  · intro unsent
    have := cut.next
    rw [emit_nextSeqno] at unsent
    omega

/-- **The loop fills the window**: by induction over its passes, each one's effect
composed with that of the rest. -/
theorem Ready.fillLoop {W : List UInt8} {window : ℕ} {s : TCPSender} {seg : TCPSegment}
    (ready : Ready W window s seg) :
    ∃ new, Filled W s new (TCPSender.fillLoop window s seg) ∧
      (TCPSender.fillLoop window s seg).bytesInFlight ≤ window ∧
      (TCPSender.fillLoop window s seg).nextSeqno ≠ 0 := by
  induction s, seg using TCPSender.fillLoop.induct window with
  | case1 s seg ended =>
      rw [ready.running] at ended
      cases ended
  | case2 s seg _ more ih =>
      obtain ⟨new', rest, fits⟩ := ih (ready.next more)
      obtain ⟨new, filled, hnew⟩ := ready.cut.1.emit
      rw [TCPSender.fillLoop, if_neg (by simp [ready.running]), dif_pos more]
      refine ⟨new ++ new', Filled.trans filled rest fun x hx => ?_, fits⟩
      rw [hnew x hx]
      exact (ready.next more).noFin
  | case3 s seg _ done =>
      obtain ⟨cut, fits⟩ := ready.cut
      obtain ⟨new, filled, -⟩ := cut.emit
      rw [TCPSender.fillLoop, if_neg (by simp [ready.running]), dif_neg done]
      refine ⟨new, filled, ?_, ?_⟩
      · rw [fillStep_eq, emit_bytesInFlight]
        exact fits
      · -- a sender that had sent nothing sends the SYN
        rw [fillStep_eq, emit_nextSeqno, cut.next]
        intro hnone
        have hsyn := cut.syn_iff.mpr (Nat.eq_zero_of_add_eq_zero_right hnone)
        simp only [TCPSegment.lengthInSequenceSpace, hsyn, if_true] at hnone
        omega

/-! ## The invariants -/

/-- The sender and its stream agree: the part of the invariant that holds whatever
is acknowledged. -/
structure Synced (W : List UInt8) (s : TCPSender) : Prop where
  buffers : Buffers W s.stream
  positioned : s.Positioned
  closed : s.isTransmissionEnded = true → s.stream.inputIsEnd = true

/-- A new sender has read nothing and sent nothing. -/
theorem synced_new {capacity : ℕ} (h : capacity < 2 ^ 64) (retxTimeout : UInt16)
    (isn : WrappingInt32) : Synced [] (new capacity retxTimeout isn) where
  buffers := ⟨ByteStream.inv_new h, rfl, le_rfl⟩
  positioned := ⟨fun _ => ⟨rfl, rfl⟩, fun sent => absurd rfl sent⟩
  closed := by simp [new]

/-- Only the stream, `_next_seqno` and the FIN matter. -/
theorem Synced.congr {W : List UInt8} {s s' : TCPSender} (h : Synced W s)
    (stream : s'.stream = s.stream) (next : s'.nextSeqno = s.nextSeqno)
    (ended : s'.isTransmissionEnded = s.isTransmissionEnded) : Synced W s' := by
  refine ⟨stream ▸ h.buffers, ⟨?_, ?_⟩, ?_⟩
  · rw [next, stream, ended]
    exact h.positioned.unsent
  · rw [next, stream, ended]
    exact h.positioned.sent
  · rw [stream, ended]
    exact h.closed

/-- Filling reads from the stream what it counts. -/
theorem Synced.filled {W : List UInt8} {s s' : TCPSender} {new : List TCPSegment}
    (h : Synced W s) (filled : Filled W s new s') : Synced W s' := by
  refine ⟨h.buffers.consumed filled.consumed, filled.positioned, fun ended => ?_⟩
  rw [filled.ended, Bool.or_eq_true] at ended
  rcases ended with ended | hany
  · rw [filled.consumed.inputIsEnd]
    exact h.closed ended
  · obtain ⟨seg, hseg, hfin⟩ := List.any_eq_true.mp hany
    exact (filled.finished ⟨seg, hseg, hfin⟩).1

/-- The next sequence number is bounded by the input accepted. -/
theorem Synced.nextSeqno_le {W : List UInt8} {s : TCPSender} (h : Synced W s) :
    s.nextSeqno ≤ W.length + 2 := by
  have hread := h.buffers.read_le
  by_cases sent : s.nextSeqno = 0
  · omega
  · have := h.positioned.sent sent
    split at this <;> omega

/-- Writing appends what the stream accepts. -/
theorem Synced.write {W : List UInt8} {s : TCPSender} (h : Synced W s) (data : List UInt8) :
    Synced (W ++ data.take (s.stream.write data).1)
      { s with stream := (s.stream.write data).2 } := by
  have hread := h.buffers.read_le
  refine ⟨⟨h.buffers.inv.write data, ?_, ?_⟩, ⟨h.positioned.unsent, h.positioned.sent⟩, h.closed⟩
  · rw [ByteStream.write_bytesRead, ByteStream.write_str, List.drop_append_of_le_length hread,
      h.buffers.rest]
    rfl
  · rw [ByteStream.write_bytesRead, List.length_append]
    omega

theorem Synced.endInput {W : List UInt8} {s : TCPSender} (h : Synced W s) :
    Synced W { s with stream := s.stream.endInput } :=
  ⟨⟨h.buffers.inv.endInput, h.buffers.rest, h.buffers.read_le⟩,
    ⟨h.positioned.unsent, h.positioned.sent⟩, fun _ => rfl⟩

/-- `una` lies in the first segment, which starts at `first`; with no segment it is
`first` itself. -/
def UnaAt (una first : ℕ) : List TCPSegment → Prop
  | [] => una = first
  | seg :: _ => first ≤ una ∧ una < first + seg.lengthInSequenceSpace

theorem UnaAt.le {una first : ℕ} {segs : List TCPSegment} (h : UnaAt una first segs) :
    first ≤ una := by
  cases segs with
  | nil => exact h.ge
  | cons seg rest => exact h.1

/-- The outstanding segments cover `[first, _next_seqno)`.  `first` is not a field of the sender:
it is where the oldest outstanding segment starts, at or below `_una_seqno`. -/
structure InFlight (W : List UInt8) (s : TCPSender) (first : ℕ) : Prop where
  placed : Placed W s.isn first s.outstandingSegments s.nextSeqno
  flight : first + s.bytesInFlight = s.nextSeqno
  una : UnaAt s.unaSeqno first s.outstandingSegments

/-- **The accounting invariant** of a sender whose stream has accepted `W`.  The bounds are those
of the window field of a segment; they keep everything in flight close enough to `_next_seqno` for
`unwrap` to find it again. -/
structure Inv (W : List UInt8) (s : TCPSender) : Prop extends Synced W s where
  inFlight : ∃ first, InFlight W s first
  windowSize_le : s.windowSize ≤ 65535
  flight_le : s.bytesInFlight ≤ 65535

/-- A new sender has nothing in flight. -/
theorem inv_new {capacity : ℕ} (h : capacity < 2 ^ 64) (retxTimeout : UInt16)
    (isn : WrappingInt32) : Inv [] (new capacity retxTimeout isn) where
  toSynced := synced_new h retxTimeout isn
  inFlight := ⟨0, rfl, rfl, rfl⟩
  windowSize_le := by simp [new]
  flight_le := by simp [new]

/-- The invariant does not depend on the outbound queue, the timer or the window,
as long as the window is a 16-bit number. -/
theorem Inv.congr {W : List UInt8} {s s' : TCPSender} (inv : Inv W s)
    (window : s'.windowSize ≤ 65535)
    (frame : s' = { s with
      windowSize := s'.windowSize
      segmentsOut := s'.segmentsOut
      timer := s'.timer
      curTime := s'.curTime
      curRto := s'.curRto
      consecutiveRetransTimes := s'.consecutiveRetransTimes }) : Inv W s' := by
  obtain ⟨first, placed, flight, una⟩ := inv.inFlight
  rw [frame]
  exact ⟨inv.toSynced.congr rfl rfl rfl, ⟨first, placed, flight, una⟩, window, inv.flight_le⟩

/-- More segments at the end do not change the first one, unless there was none. -/
theorem UnaAt.append {W : List UInt8} {isn : WrappingInt32} {una first mid stop : ℕ}
    {xs ys : List TCPSegment} (h : UnaAt una first xs) (left : Placed W isn first xs mid)
    (right : Placed W isn mid ys stop) : UnaAt una first (xs ++ ys) := by
  cases xs with
  | cons x xs => exact h
  | nil =>
      cases ys with
      | nil => exact h
      | cons y ys =>
          have hmid : first = mid := left
          have := right.1.occupied
          exact ⟨h.ge, by rw [h]; omega⟩

/-- Filling extends what is in flight at its end. -/
theorem Inv.filled {W : List UInt8} {s s' : TCPSender} {new : List TCPSegment} (inv : Inv W s)
    (h : Filled W s new s') (fits : s'.bytesInFlight ≤ 65535) : Inv W s' := by
  obtain ⟨first, placed, flight, una⟩ := inv.inFlight
  have hisn := h.isn_eq
  have huna : s'.unaSeqno = s.unaSeqno := by rw [h.frame]
  refine ⟨inv.toSynced.filled h, ⟨first, ?_, ?_, ?_⟩, ?_, fits⟩
  · rw [h.outstanding, hisn]
    exact LaidOut.append placed h.placed
  · have := h.flight
    omega
  · rw [h.outstanding, huna]
    exact una.append placed h.placed
  · rw [h.frame]
    exact inv.windowSize_le

/-- `fill_window` is not called with a SYN to send, a window for more and something
to put into it. -/
def SynAlone (s : TCPSender) : Prop :=
  s.nextSeqno = 0 → s.windowSize ≤ 1 ∨ s.stream.bufferEmpty = true

instance (s : TCPSender) : Decidable s.SynAlone := inferInstanceAs (Decidable (_ → _))

/-- What the loop of `fill_window` is entered with. -/
theorem Synced.ready {W : List UInt8} {s : TCPSender} (h : Synced W s) (alone : s.SynAlone)
    (room : s.bytesInFlight < s.actualWindowSize) (running : s.isTransmissionEnded = false) :
    Ready W s.actualWindowSize s {} := by
  refine ⟨h.buffers, h.positioned, running, room, rfl, rfl, rfl, fun unsent => ?_⟩
  rcases alone unsent with hwin | hempty
  · refine Or.inl ?_
    unfold actualWindowSize
    split <;> omega
  · exact Or.inr (h.buffers.inv.bufferEmpty_iff.mp hempty)

/-- **The effect of `fill_window`.**  What is in flight afterwards fits the window, unless it did
not fit before: a window that shrinks does not take anything back. -/
theorem Synced.fillWindow {W : List UInt8} {s : TCPSender} (h : Synced W s)
    (alone : s.SynAlone) :
    ∃ new, Filled W s new s.fillWindow ∧
      s.fillWindow.bytesInFlight ≤ max s.bytesInFlight s.actualWindowSize ∧
      (s.bytesInFlight = 0 → s.fillWindow.nextSeqno ≠ 0) := by
  have unchanged : Filled W s [] s := filled_refl h.buffers.inv h.positioned
  have hpos : 0 < s.actualWindowSize := by
    unfold actualWindowSize
    split <;> omega
  unfold TCPSender.fillWindow
  split
  · exact ⟨[], unchanged, le_max_left _ _, by omega⟩
  · next room =>
    by_cases ended : s.isTransmissionEnded = true
    · have : TCPSender.fillLoop s.actualWindowSize s {} = s := by
        rw [TCPSender.fillLoop, if_pos ended]
      rw [this]
      refine ⟨[], unchanged, le_max_left _ _, fun _ unsent => ?_⟩
      rw [(h.positioned.unsent unsent).2] at ended
      cases ended
    · obtain ⟨new, filled, fits, sent⟩ :=
        (h.ready alone (not_le.mp room) (Bool.eq_false_iff.mpr ended)).fillLoop
      exact ⟨new, filled, fits.trans (le_max_right _ _), fun _ => sent⟩

/-- The same under the accounting invariant: the window bounds what is in flight. -/
theorem Inv.fillWindow {W : List UInt8} {s : TCPSender} (inv : Inv W s)
    (alone : s.SynAlone) :
    ∃ new, Filled W s new s.fillWindow ∧ Inv W s.fillWindow ∧ s.fillWindow.nextSeqno ≠ 0 := by
  obtain ⟨new, filled, fits, sent⟩ := inv.toSynced.fillWindow alone
  refine ⟨new, filled, inv.filled filled ?_, fun hnone => ?_⟩
  · have hwin := inv.windowSize_le
    have hflight := inv.flight_le
    have : s.actualWindowSize ≤ 65535 := by
      unfold actualWindowSize
      split <;> omega
    omega
  · have hflight : s.bytesInFlight = 0 := by
      obtain ⟨first, -, hcount, -⟩ := inv.inFlight
      have := filled.placed.le
      omega
    exact sent hflight hnone

/-! ## `ack_received` -/

/-- In the loop of `ack_received`, no popped length exceeds the count it is taken
from. -/
def NoUnderflow (s : TCPSender) (acknoAbs : ℕ) : ℕ → List TCPSegment → Prop
  | _, [] => True
  | flight, seg :: rest =>
      s.Acked acknoAbs seg → seg.lengthInSequenceSpace ≤ flight ∧
        s.NoUnderflow acknoAbs (sub64 flight seg.lengthInSequenceSpace) rest

/-- A segment in flight is acknowledged exactly when it ends at or below the
acknowledgment: its wrapped sequence number unwraps to its place. -/
theorem acked_iff {W : List UInt8} {s : TCPSender} {a : ℕ} {seg : TCPSegment} (acknoAbs : ℕ)
    (hnext : s.nextSeqno < 2 ^ 64) (hseg : At W s.isn a seg)
    (hstop : a + seg.lengthInSequenceSpace ≤ s.nextSeqno) (near : s.nextSeqno ≤ a + 65535) :
    s.Acked acknoAbs seg ↔ a + seg.lengthInSequenceSpace ≤ acknoAbs := by
  rw [Acked, hseg.seqno, unwrap_wrap s.isn (by omega) (by omega) (by omega) (by omega),
    add64_of_lt (by omega)]

/-- **The loop of `ack_received` cuts the layout** at the first segment that ends past the
acknowledgment.  What it pops and what it leaves are again laid out one after the other, and the
count of bytes in flight is that of what it leaves. -/
theorem popAcked_spec {W : List UInt8} {s : TCPSender} (acknoAbs : ℕ)
    (hnext : s.nextSeqno < 2 ^ 64) {outs : List TCPSegment} {first flight : ℕ}
    (placed : Placed W s.isn first outs s.nextSeqno) (hflight : first + flight = s.nextSeqno)
    (small : flight ≤ 65535) :
    s.NoUnderflow acknoAbs flight outs ∧
    ∃ popped m, outs = popped ++ (s.popAcked acknoAbs flight outs).2 ∧
      Placed W s.isn first popped m ∧
      Placed W s.isn m (s.popAcked acknoAbs flight outs).2 s.nextSeqno ∧
      m + (s.popAcked acknoAbs flight outs).1 = s.nextSeqno ∧ m ≤ max first acknoAbs ∧
      ∀ seg rest, (s.popAcked acknoAbs flight outs).2 = seg :: rest →
        acknoAbs < m + seg.lengthInSequenceSpace := by
  induction outs generalizing first flight with
  | nil =>
      refine ⟨trivial, [], first, rfl, rfl, placed, hflight, le_max_left _ _, ?_⟩
      intro seg rest h
      cases h
  | cons seg rest ih =>
      have hstop := placed.2.le
      have hacked := acked_iff acknoAbs hnext placed.1 hstop (by omega)
      have hsub : sub64 flight seg.lengthInSequenceSpace = flight - seg.lengthInSequenceSpace :=
        sub64_of_le (by omega)
      have hcount : first + seg.lengthInSequenceSpace + (flight - seg.lengthInSequenceSpace)
          = s.nextSeqno := by omega
      have tail := ih placed.2 hcount (by omega)
      simp only [NoUnderflow, popAcked, hsub]
      -- the segment is popped and the rest by induction, or the loop stops here
      by_cases done : s.Acked acknoAbs seg
      · rw [if_pos done]
        obtain ⟨safe, popped, m, hsplit, hpopped, hrest, hcount, hm, hhead⟩ := tail
        have := hacked.mp done
        refine ⟨fun _ => ⟨by omega, safe⟩, seg :: popped, m, congrArg (seg :: ·) hsplit,
          ⟨placed.1, hpopped⟩, hrest, hcount, by omega, hhead⟩
      · rw [if_neg done]
        refine ⟨fun h => absurd h done, [], first, rfl, rfl, placed, hflight, le_max_left _ _, ?_⟩
        intro seg' rest' h
        obtain ⟨rfl, -⟩ := List.cons.inj h
        exact not_le.mp (mt hacked.mpr done)

/-- Whatever the numbers say, the loop only pops from the front. -/
theorem popAcked_suffix (s : TCPSender) (acknoAbs flight : ℕ) (outs : List TCPSegment) :
    (s.popAcked acknoAbs flight outs).2 <:+ outs := by
  induction outs generalizing flight with
  | nil => exact List.suffix_rfl
  | cons seg rest ih =>
      unfold popAcked
      split
      · exact (ih _).trans (List.suffix_cons seg rest)
      · exact List.suffix_rfl

/-- What `ack_received` leaves alone, whatever the numbers say. -/
theorem ackReceived_effect (s : TCPSender) (ackno : WrappingInt32) (windowSize : UInt16) :
    (s.ackReceived ackno windowSize).outstandingSegments <:+ s.outstandingSegments ∧
      s.ackReceived ackno windowSize = { s with
        windowSize := (s.ackReceived ackno windowSize).windowSize
        unaSeqno := (s.ackReceived ackno windowSize).unaSeqno
        bytesInFlight := (s.ackReceived ackno windowSize).bytesInFlight
        outstandingSegments := (s.ackReceived ackno windowSize).outstandingSegments
        curRto := (s.ackReceived ackno windowSize).curRto
        consecutiveRetransTimes := (s.ackReceived ackno windowSize).consecutiveRetransTimes
        timer := (s.ackReceived ackno windowSize).timer } := by
  unfold ackReceived
  simp only
  split
  · exact ⟨List.suffix_rfl, rfl⟩
  · exact ⟨s.popAcked_suffix _ _ _, rfl⟩

/-- No acknowledgment touches the stream or the next number. -/
theorem Synced.ackReceived {W : List UInt8} {s : TCPSender} (h : Synced W s)
    (ackno : WrappingInt32) (windowSize : UInt16) :
    Synced W (s.ackReceived ackno windowSize) := by
  rw [(s.ackReceived_effect ackno windowSize).2]
  exact h.congr rfl rfl rfl

/-- The effect of an acceptable acknowledgment up to `acknoAbs`.  A segment that is acknowledged
in part stays outstanding, so the acknowledgment can lie past where the outstanding segments now
start. -/
structure Released (W : List UInt8) (s : TCPSender) (acknoAbs : ℕ)
    (popped : List TCPSegment) (s' : TCPSender) : Prop where
  outstanding : s.outstandingSegments = popped ++ s'.outstandingSegments
  una : s'.unaSeqno = acknoAbs
  advances : s.unaSeqno < acknoAbs
  sent : acknoAbs ≤ s.nextSeqno
  /-- What is popped ends at or below the acknowledgment. -/
  popped_at : ∀ seg ∈ popped, ∃ a, At W s.isn a seg ∧
    a + seg.lengthInSequenceSpace ≤ acknoAbs
  frame : s' = { s with
    windowSize := s'.windowSize
    unaSeqno := s'.unaSeqno
    bytesInFlight := s'.bytesInFlight
    outstandingSegments := s'.outstandingSegments
    curRto := s'.curRto
    consecutiveRetransTimes := s'.consecutiveRetransTimes
    timer := s'.timer }

/-- **The effect of `ack_received`.**  The window is always taken over; the rest
changes only for an acceptable acknowledgment. -/
theorem Inv.ackReceived {W : List UInt8} {s : TCPSender} (inv : Inv W s)
    (hnext : s.nextSeqno < 2 ^ 64) (ackno : WrappingInt32) (windowSize : UInt16) :
    Inv W (s.ackReceived ackno windowSize) ∧
      (s.ackReceived ackno windowSize = { s with windowSize := windowSize.toNat } ∨
        ∃ popped, Released W s (unwrap ackno s.isn s.nextSeqno) popped
          (s.ackReceived ackno windowSize)) := by
  have hwin : windowSize.toNat ≤ 65535 := by
    have := windowSize.toNat_lt
    omega
  obtain ⟨first, placed, flight, una⟩ := inv.inFlight
  unfold TCPSender.ackReceived
  simp only
  split
  · exact ⟨inv.congr hwin rfl, Or.inl rfl⟩
  · next acceptable =>
    rw [not_or, not_le, not_lt] at acceptable
    obtain ⟨hadv, hsent⟩ := acceptable
    obtain ⟨-, popped, m, hsplit, hpopped, hrest, hcount, hm, hhead⟩ :=
      popAcked_spec (unwrap ackno s.isn s.nextSeqno) hnext placed flight inv.flight_le
    generalize s.popAcked _ s.bytesInFlight s.outstandingSegments = left at *
    have hfirst : first ≤ s.unaSeqno := una.le
    refine ⟨⟨inv.toSynced.congr rfl rfl rfl, ⟨m, hrest, hcount, ?_⟩, hwin, ?_⟩,
      Or.inr ⟨popped, hsplit, rfl, hadv, hsent, ?_, rfl⟩⟩
    · show UnaAt (unwrap ackno s.isn s.nextSeqno) m left.2
      -- an empty queue means that all was acknowledged; otherwise the loop stopped at a segment
      cases hleft : left.2 with
      | nil =>
          rw [hleft] at hrest
          have : m = s.nextSeqno := hrest
          simp only [UnaAt]
          omega
      | cons seg rest => exact ⟨by omega, hhead seg rest hleft⟩
    · have := inv.flight_le
      have := hpopped.le
      simp only
      omega
    · intro seg hseg
      obtain ⟨a, -, hstop, hat⟩ := hpopped.at_of_mem hseg
      exact ⟨a, hat, by omega⟩

/-! ## The other operations -/

/-- Marking the stream as broken changes no counter. -/
theorem Inv.setError {W : List UInt8} {s : TCPSender} (inv : Inv W s) :
    Inv W { s with stream := s.stream.setError } := by
  obtain ⟨first, placed, flight, una⟩ := inv.inFlight
  have buffers : Buffers W s.stream.setError :=
    ⟨inv.buffers.inv.setError, inv.buffers.rest, inv.buffers.read_le⟩
  exact ⟨⟨buffers, ⟨inv.positioned.unsent, inv.positioned.sent⟩, inv.closed⟩,
    ⟨first, placed, flight, una⟩, inv.windowSize_le, inv.flight_le⟩

/-- **The effect of `tick`**: at most the oldest outstanding segment is sent again.  It is sent as
it was, and stays outstanding; neither the window nor any sequence number changes. -/
theorem tick_effect (s : TCPSender) (ms : ℕ) :
    ∃ again, (s.tick ms).segmentsOut = s.segmentsOut ++ again ∧
      (∀ seg ∈ again, seg ∈ s.outstandingSegments) ∧
      s.tick ms = { s with
        segmentsOut := (s.tick ms).segmentsOut
        timer := (s.tick ms).timer
        curTime := (s.tick ms).curTime
        curRto := (s.tick ms).curRto
        consecutiveRetransTimes := (s.tick ms).consecutiveRetransTimes } := by
  unfold tick
  simp only
  split
  · next seg rest _ hout =>
    refine ⟨[seg], ?_, by simp [hout], ?_⟩ <;> split <;> rfl
  · exact ⟨[], (List.append_nil _).symm, by simp, rfl⟩

theorem Synced.tick {W : List UInt8} {s : TCPSender} (h : Synced W s) (ms : ℕ) :
    Synced W (s.tick ms) := by
  obtain ⟨again, -, -, frame⟩ := s.tick_effect ms
  rw [frame]
  exact h.congr rfl rfl rfl

/-- What is sent again is in flight already. -/
theorem Inv.tick {W : List UInt8} {s : TCPSender} (inv : Inv W s) (ms : ℕ) :
    Inv W (s.tick ms) := by
  obtain ⟨again, -, -, frame⟩ := s.tick_effect ms
  have hwin : (s.tick ms).windowSize = s.windowSize := by rw [frame]
  refine inv.congr (hwin ▸ inv.windowSize_le) ?_
  rw [hwin]
  exact frame

/-- An empty segment occupies nothing and is not kept. -/
theorem Inv.sendEmptySegment {W : List UInt8} {s : TCPSender} (inv : Inv W s) :
    Inv W s.sendEmptySegment :=
  inv.congr inv.windowSize_le rfl

/-- Writing adds what is accepted to `W`. -/
theorem Inv.write {W : List UInt8} {s : TCPSender} (inv : Inv W s) (data : List UInt8) :
    Inv (W ++ data.take (s.stream.write data).1) { s with stream := (s.stream.write data).2 } := by
  obtain ⟨first, placed, flight, una⟩ := inv.inFlight
  exact ⟨inv.toSynced.write data, ⟨first, placed.mono fun _ _ h => h.grow _, flight, una⟩,
    inv.windowSize_le, inv.flight_le⟩

theorem Inv.endInput {W : List UInt8} {s : TCPSender} (inv : Inv W s) :
    Inv W { s with stream := s.stream.endInput } := by
  obtain ⟨first, placed, flight, una⟩ := inv.inFlight
  exact ⟨inv.toSynced.endInput, ⟨first, placed, flight, una⟩, inv.windowSize_le, inv.flight_le⟩

end TCPSender

end Sponge
