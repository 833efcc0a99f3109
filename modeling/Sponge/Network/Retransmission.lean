import Sponge.Network.Contact
import Sponge.TCPConnection.Poised

/-!
# What a retransmission achieves

The segment that is sent again is the oldest one outstanding, so it covers `_una_seqno`
(`Outgoing.repeats`).  A receiver with room for one byte has that sequence number after it,
whatever it had before (`Linked.advances`), and answers.  The answer may carry data or the
FIN of the other direction; the answer to the same segment again is nothing but the
acknowledgment (`Linked.answered_again`), and that moves `_una_seqno` (`Linked.answered`).

Everything here is about one delivery; Network/Recovery puts them in a row.

### Why the segment is delivered twice

One delivery would do to move the receiver.  It would not do to move the sender: the answer
to it is whatever the receiver's own sender has to say next, and if that is the FIN alone,
it must not be delivered while a byte in front of it is missing.  The first answer uses up
the window, so the second has nothing in it but the acknowledgment, which can be delivered
in any order.

### Who is who

`p` is the side that repeats and `h` the side that receives; `Linked p h` is all that is
known about the direction from `p` to `h`, and `Linked h p` about the way back, which is
needed because the repeated segment carries an acknowledgment and is answered with one.
Seven invariants of the modules before meet in `Linked`, each of which is kept by every step
of an orderly run.

### The cases

The number `_una_seqno` is that of the SYN, of a byte or of the FIN.  The SYN makes the
receiver know the initial sequence number; a byte is next in order for a receiver that has
not got it, so it is taken if there is room (`Inv.push_advances`); and a FIN finds all bytes
before it assembled and ends the stream (`EndHeld.push_ends`).  In each case the position of
the receiver is past `_una_seqno` afterwards, or was before.
-/

namespace Sponge

open Runs TCPSender

theorem WrappingInt32.sub_one_add_one (n : WrappingInt32) :
    n - (1 : UInt32) + (1 : UInt32) = n := by
  obtain ⟨value⟩ := n
  show (⟨value + -1 + 1⟩ : WrappingInt32) = ⟨value⟩
  rw [UInt32.add_assoc, UInt32.add_left_neg, UInt32.add_zero]

/-- A sender that is CLOSED has sent nothing. -/
theorem TCPState.nextSeqno_of_closed {s : TCPSender} (closed : senderSummary s = .closed) :
    s.nextSeqno = 0 := by
  unfold senderSummary at closed
  split_ifs at closed
  assumption

namespace StreamReassembler

variable {S : List UInt8} {r r' : StreamReassembler} {popped data : List UInt8} {index : ℕ}

/-- **The next byte, if there is room for it, is taken.**  It does not matter what else the push
carries, nor what is stored behind the gap. -/
theorem Inv.push_advances (inv : r.Inv) {eof : Bool} (hcur : r.curIndex < 2 ^ 64)
    (hlen : index + data.length < 2 ^ 64) (room : 0 < r.output.remainingCapacity)
    (start : index ≤ r.curIndex) (reaches : r.curIndex < index + data.length)
    (h : r.pushSubstring data index eof = .ok r') : r.curIndex < r'.curIndex := by
  have hedge : r.curIndex < r.edge := Nat.lt_add_of_pos_right room
  have holds : r'.Holds r.curIndex :=
    (inv.holds_push hcur hlen (.inr (start.trans hedge.le)) h r.curIndex).mpr
      (.inr ⟨start, reaches, hedge⟩)
  rcases holds with below | ⟨c, hc, hcovers⟩
  · exact below
  · -- what is stored is past the write index
    have hbeyond := (inv.push hcur hlen h).beyond c hc
    have hgrown := (pushSubstring_grown h).curIndex_le
    have hstart := hcovers.1
    omega

/-- **The end, if all bytes before it are there, is taken.**  The room is needed even for a push
without bytes: `push_substring` returns at once if there is none. -/
theorem EndHeld.push_ends (held : EndHeld S r popped) (hcur : r.curIndex < 2 ^ 64)
    (hlen : index + data.length < 2 ^ 64) (room : 0 < r.output.remainingCapacity)
    (hedge : r.edge < 2 ^ 64) (excerpt : data <+: S.drop index)
    (last : index + data.length = S.length) (complete : r.curIndex = S.length)
    (h : r.pushSubstring data index true = .ok r') : r'.output.inputIsEnd = true := by
  have inv := held.faithful.inv
  have inOrder : r.BareEofInOrder data index true := fun _ none _ _ => by
    rw [none, List.length_nil] at last
    exact .inl (by omega)
  have held' := held.push hcur hlen excerpt (fun _ => last) inOrder h
  refine held'.ended_iff.mpr ⟨?_, le_antisymm held'.faithful.curIndex_le ?_⟩
  · rcases inv.push_cases hcur hlen h with ⟨full, -⟩ | ⟨-, -, stored⟩ | ⟨-, -, stored⟩
    · omega
    · rw [stored.eof, Bool.or_true]
    · have whole : r.carriesEof data index = true := by
        have : r.curIndex ≤ r.edge := Inv.curIndex_le_edge r
        exact decide_eq_true ⟨by omega, hedge⟩
      rw [stored.eof, whole, Bool.and_true, Bool.or_true]
  · rw [← complete]
    exact (pushSubstring_grown h).curIndex_le

end StreamReassembler

namespace TCPSender

variable {W : List UInt8} {s : TCPSender} {seg seg' : TCPSegment} {a : ℕ}

/-- The segment covers the first sequence number that is not acknowledged.  It may start before
it, if the receiver has taken a part of it only. -/
structure Oldest (W : List UInt8) (s : TCPSender) (a : ℕ) (seg : TCPSegment) : Prop where
  carried : Carried W s a seg
  start_le : a ≤ s.unaSeqno
  lt_stop : s.unaSeqno < a + seg.lengthInSequenceSpace

/-- The same segment with other fields, of a sender in the same place. -/
theorem Oldest.congr {s' : TCPSender} (oldest : Oldest W s a seg)
    (seqno : seg'.header.seqno = seg.header.seqno) (syn : seg'.header.syn = seg.header.syn)
    (fin : seg'.header.fin = seg.header.fin) (payload : seg'.payload = seg.payload)
    (isn : s'.isn = s.isn) (next : s'.nextSeqno = s.nextSeqno) (una : s'.unaSeqno = s.unaSeqno)
    (ended : s'.isTransmissionEnded = s.isTransmissionEnded) : Oldest W s' a seg' := by
  have hlen : seg'.lengthInSequenceSpace = seg.lengthInSequenceSpace := by
    simp only [TCPSegment.lengthInSequenceSpace, syn, fin, payload]
  obtain ⟨⟨hseqno, hsyn, hpayload, hle, hstop, hfin⟩, hstart, hlt⟩ := oldest
  rw [← seqno, ← isn] at hseqno
  rw [← syn] at hsyn
  rw [← payload] at hpayload hle
  rw [← hlen, ← next] at hstop hfin
  rw [← fin, ← ended] at hfin
  rw [← una] at hstart hlt
  rw [← hlen] at hlt
  exact ⟨⟨hseqno, hsyn, hpayload, hle, hstop, hfin⟩, hstart, hlt⟩

/-- It is a byte of the payload, or the FIN. -/
theorem Oldest.cases (oldest : Oldest W s a seg) (una : s.unaSeqno ≠ 0) :
    a - 1 + 1 ≤ s.unaSeqno ∧ (s.unaSeqno < a - 1 + 1 + seg.payload.length ∨
      seg.header.fin = true ∧ s.unaSeqno = a - 1 + 1 + seg.payload.length) := by
  have hstart := oldest.start_le
  have hstop := oldest.lt_stop
  have hsyn := oldest.carried.syn_iff
  unfold TCPSegment.lengthInSequenceSpace at hstop
  refine ⟨by omega, ?_⟩
  by_cases syn : seg.header.syn = true
  · have := hsyn.mp syn
    simp only [syn, if_true] at hstop
    split at hstop
    · next fin => simp only [fin, true_and]; omega
    · exact .inl (by omega)
  · have := mt hsyn.mpr syn
    simp only [syn, Bool.false_eq_true, if_false] at hstop
    split at hstop
    · next fin => simp only [fin, true_and]; omega
    · exact .inl (by omega)

/-- **The first outstanding segment covers `_una_seqno`.**  The outstanding segments lie end to
end up to `_next_seqno`, and a segment that is acknowledged as a whole has been removed. -/
theorem Sound.oldest (sound : Sound W s) (small : s.nextSeqno < 2 ^ 31)
    {rest : List TCPSegment} (outstanding : s.outstandingSegments = seg :: rest) :
    ∃ a, Oldest W s a seg := by
  obtain ⟨first, placed, -, una⟩ := sound.inv.inFlight
  rw [outstanding] at placed una
  obtain ⟨hstart, hstop⟩ := una
  rcases (sound.outstanding seg (by simp [outstanding])).1 with none | ⟨a, car⟩
  · have := placed.1.occupied
    omega
  · have hle := car.stop_le
    have hlast := placed.2.le
    have hwrap : wrap a s.isn = wrap first s.isn := car.seqno.symm.trans placed.1.seqno
    obtain rfl : a = first :=
      calc a = unwrap (wrap a s.isn) s.isn 0 :=
            (unwrap_wrap _ (by omega) (by omega) (by omega) (by omega)).symm
        _ = unwrap (wrap first s.isn) s.isn 0 := by rw [hwrap]
        _ = first := unwrap_wrap _ (by omega) (by omega) (by omega) (by omega)
    exact ⟨a, car, hstart, hstop⟩

/-- An acknowledgment that is not past `_next_seqno` takes `_una_seqno` at least to where it
points. -/
theorem le_ackReceived_una (ackno : WrappingInt32) (windowSize : UInt16)
    (hle : unwrap ackno s.isn s.nextSeqno ≤ s.nextSeqno) :
    unwrap ackno s.isn s.nextSeqno ≤ (s.ackReceived ackno windowSize).unaSeqno := by
  unfold TCPSender.ackReceived
  simp only
  split
  · next unacceptable => exact unacceptable.resolve_right (not_lt.mpr hle)
  · exact le_rfl

/-- An acceptable acknowledgment moves `_una_seqno` and forgets the retransmissions. -/
theorem ackReceived_acceptable (ackno : WrappingInt32) (windowSize : UInt16)
    (advances : s.unaSeqno < unwrap ackno s.isn s.nextSeqno)
    (hle : unwrap ackno s.isn s.nextSeqno ≤ s.nextSeqno) :
    (s.ackReceived ackno windowSize).unaSeqno = unwrap ackno s.isn s.nextSeqno ∧
      (s.ackReceived ackno windowSize).consecutiveRetransTimes = 0 := by
  unfold TCPSender.ackReceived
  simp only
  rw [if_neg (not_or.mpr ⟨not_le.mpr advances, not_lt.mpr hle⟩)]
  exact ⟨rfl, rfl⟩

/-- Of an acknowledgment that points to `_una_seqno` or below, only the window is taken. -/
theorem ackReceived_again (ackno : WrappingInt32) {windowSize : UInt16}
    (old : unwrap ackno s.isn s.nextSeqno ≤ s.unaSeqno)
    (window : s.windowSize = windowSize.toNat) : s.ackReceived ackno windowSize = s := by
  unfold TCPSender.ackReceived
  simp only
  rw [if_pos (.inl old), ← window]

end TCPSender

namespace TCPConnection

/-- Only the acknowledgment and the window are filled in. -/
theorem fillIn_same (c : TCPConnection) (seg : TCPSegment) :
    (c.fillIn seg).header.seqno = seg.header.seqno ∧ (c.fillIn seg).header.syn = seg.header.syn ∧
      (c.fillIn seg).header.fin = seg.header.fin ∧ (c.fillIn seg).header.rst = seg.header.rst ∧
      (c.fillIn seg).payload = seg.payload := by
  unfold fillIn
  cases c.receiver.ackno <;> exact ⟨rfl, rfl, rfl, rfl, rfl⟩

/-- A segment with nothing to say beside the acknowledgment. -/
def bareAck (c : TCPConnection) : TCPSegment :=
  c.fillIn { header := { seqno := wrap c.sender.nextSeqno c.sender.isn } }

theorem bareAck_header (c : TCPConnection) :
    c.bareAck.header.seqno = wrap c.sender.nextSeqno c.sender.isn ∧ c.bareAck.header.fin = false ∧
      c.bareAck.header.rst = false := by
  obtain ⟨hseqno, -, hfin, hrst, -⟩ :=
    c.fillIn_same { header := { seqno := wrap c.sender.nextSeqno c.sender.isn } }
  exact ⟨hseqno, hfin, hrst⟩

/-- **With nothing to send, the answer is the bare acknowledgment.**  It is sent for a segment
that occupies sequence numbers; a mere acknowledgment is not answered. -/
theorem respond_bare {c : TCPConnection} {seg : TCPSegment}
    (nothing : (c.refill seg).sender.segmentsOut = []) (occupied : seg.lengthInSequenceSpace ≠ 0) :
    (c.respond seg).segmentsOut = c.segmentsOut ++ [(c.respond seg).bareAck] := by
  have responded : c.respond seg = { c.refill seg with
      sender := (c.refill seg).sender.sendEmptySegment }.sendAllOutboundingSegments := by
    unfold respond
    simp only
    rw [if_pos (List.isEmpty_iff.mpr nothing), if_pos occupied]
  rw [responded]
  simp only [sendAllOutboundingSegments, sendEmptySegment, nothing, List.nil_append,
    List.map_singleton]
  rfl

end TCPConnection

namespace Host

variable {h h' p p' : Host} {seg : TCPSegment} {a : ℕ} {r' : TCPReceiver}

/-- The acknowledgment number of a receiver is its position in the stream of the peer. -/
theorem Incoming.ackno_eq (inc : Incoming p h) {ackno : WrappingInt32}
    (known : h.conn.receiver.ackno = some ackno) :
    Knows p h ∧ ackno = wrap h.conn.receiver.ackPosition p.conn.sender.isn := by
  unfold TCPReceiver.ackno at known
  cases hisn : h.conn.receiver.isn with
  | none => simp [hisn] at known
  | some isn =>
      simp only [hisn, Option.some.injEq] at known
      rw [Knows, hisn, ← known, inc.isn isn hisn]
      exact ⟨rfl, rfl⟩

theorem Knows.ackno_eq (known : Knows p h) :
    h.conn.receiver.ackno = some (wrap h.conn.receiver.ackPosition p.conn.sender.isn) := by
  have hisn : h.conn.receiver.isn = some p.conn.sender.isn := known
  simp only [TCPReceiver.ackno, hisn]

/-! ## The oldest segment is sent again -/

/-- The segment is the oldest one of `p`, with what `p` acknowledges now.  A copy that is still on
its way may say something older; the one that the timer sends has the acknowledgment filled in
anew. -/
structure Repeats (p : Host) (a : ℕ) (seg : TCPSegment) : Prop where
  oldest : Oldest p.accepted p.conn.sender a seg
  noRst : seg.header.rst = false
  own : seg.header.ack = true → p.conn.receiver.ackno = some seg.header.ackno

/-- **When the timer expires, the oldest segment is queued again.**  How long this takes is
bounded, and the connection survives it as long as it has retransmissions left. -/
theorem Outgoing.repeats (g : p.Outgoing) (small : p.accepted.length < 2 ^ 31 - 2)
    (poised : p.conn.Poised) (outstanding : p.conn.sender.outstandingSegments ≠ [])
    (retries : p.conn.sender.consecutiveRetransTimes < TCPConfig.maxRetxAttempts) :
    ∃ ms < 2 ^ 64, ∃ p' a seg queue, p.act (.tick ms) = .ok p' ∧ p'.wire = p.wire ∧
      p'.conn.segmentsOut = queue ++ [seg] ∧ p'.Repeats a seg := by
  obtain ⟨seg, rest, some⟩ := List.exists_cons_of_ne_nil outstanding
  have mem : seg ∈ p.conn.sender.outstandingSegments := some ▸ List.mem_cons_self
  have hnext := g.nextSeqno_le
  have sound := g.outbound.sound
  obtain ⟨a, oldest⟩ := sound.oldest (by omega) some
  obtain ⟨ms, hms, hqueue, going⟩ := poised.armed.tick_expires some retries
  obtain ⟨-, -, -, frame⟩ := p.conn.sender.tick_effect ms
  obtain ⟨removed, acted⟩ := p.exists_act
    (show p.conn.step (.tick ms) = .ok (p.conn.tick ms) from rfl)
  -- the connection does not give up, so the tick ends with an empty sender queue
  have ticked : p.conn.tick ms = { p.conn with
      timeSinceLastSegReceived := add64 p.conn.timeSinceLastSegReceived ms
      sender := p.conn.sender.tick ms }.sendAllOutboundingSegments := by
    unfold TCPConnection.tick
    exact if_neg (not_lt.mpr going)
  refine ⟨ms, hms, _, a, p.conn.fillIn seg,
    p.conn.segmentsOut ++ p.conn.sender.segmentsOut.map p.conn.fillIn, acted, rfl, ?_, ?_⟩
  · show (p.conn.tick ms).segmentsOut = _
    rw [ticked]
    show p.conn.segmentsOut ++ (p.conn.sender.tick ms).segmentsOut.map p.conn.fillIn = _
    rw [hqueue, List.map_append, List.map_singleton, List.append_assoc]
  · obtain ⟨hseqno, hsyn, hfin, hrst, hpayload⟩ := p.conn.fillIn_same seg
    have sender : (p.conn.tick ms).sender = { p.conn.sender.tick ms with segmentsOut := [] } := by
      rw [ticked]
      rfl
    -- a tick changes none of the numbers that make the segment the oldest one
    have same : (p.conn.tick ms).sender.isn = p.conn.sender.isn ∧
        (p.conn.tick ms).sender.nextSeqno = p.conn.sender.nextSeqno ∧
        (p.conn.tick ms).sender.unaSeqno = p.conn.sender.unaSeqno ∧
        (p.conn.tick ms).sender.isTransmissionEnded = p.conn.sender.isTransmissionEnded := by
      rw [sender, frame]
      exact ⟨rfl, rfl, rfl, rfl⟩
    obtain ⟨hisn, hnextSame, huna, hended⟩ := same
    refine ⟨?_, hrst.trans (poised.unreset seg mem), fun ack => ?_⟩
    · show Oldest (p.accepted ++ []) _ _ _
      rw [List.append_nil]
      exact oldest.congr hseqno hsyn hfin hpayload hisn hnextSame huna hended
    · have known := TCPConnection.fillIn_ack (sound.outstanding seg mem).2 ack
      show (p.conn.tick ms).receiver.ackno = _
      rw [ticked]
      exact known

/-! ## The oldest segment arrives -/

/-- **All that links what `p` sends to what `h` receives**, after an orderly run. -/
structure Linked (p h : Host) : Prop where
  small : p.accepted.length < 2 ^ 31 - 2
  outgoing : p.Outgoing
  settled : p.Settled
  incoming : Incoming p h
  delivering : Delivering p h
  granted : Granted p h
  heard : Heard p h

/-- What is sent and what is received both end before the sequence numbers repeat. -/
theorem Linked.bounds (link : Linked p h) :
    p.conn.sender.nextSeqno < 2 ^ 31 ∧ h.conn.receiver.curIndex < 2 ^ 31 - 2 := by
  have hnext := link.outgoing.nextSeqno_le
  have hcur : h.conn.receiver.curIndex ≤ p.accepted.length := link.incoming.faithful.curIndex_le
  have small := link.small
  omega

theorem Repeats.occupied (rep : p.Repeats a seg) : seg.lengthInSequenceSpace ≠ 0 := by
  have := rep.oldest.start_le
  have := rep.oldest.lt_stop
  omega

/-- One who is sent something else than the SYN has heard the SYN. -/
theorem Repeats.knows (rep : p.Repeats a seg) (heard : Heard p h) (noSyn : seg.header.syn = false) :
    Knows p h := by
  refine heard.una fun unmoved => ?_
  have hstart := rep.oldest.start_le
  have hsyn := rep.oldest.carried.syn_iff.mpr (by omega)
  rw [noSyn] at hsyn
  cases hsyn

/-- The segment is a SYN, or its receiver has heard one. -/
theorem Repeats.isnAfter (rep : p.Repeats a seg) (heard : Heard p h) :
    h.conn.receiver.isnAfter seg = some p.conn.sender.isn := by
  unfold TCPReceiver.isnAfter
  split
  · next syn => rw [rep.oldest.carried.seqno, rep.oldest.carried.syn_iff.mp syn, wrap_zero]
  · next noSyn => exact rep.knows heard (Bool.eq_false_iff.mpr noSyn)

/-- **The segment gets through to the reassembler.**  It is a SYN, or the receiver knows the
initial sequence number already; in either case its index into the stream is not confused with
another. -/
theorem Linked.pushed (link : Linked p h) (rep : p.Repeats a seg)
    (received : h.conn.receiver.segmentReceived seg = .ok r') :
    r'.isn = some p.conn.sender.isn ∧
      h.conn.receiver.reassembler.pushSubstring seg.payload (a - 1) seg.header.fin
        = .ok r'.reassembler := by
  obtain ⟨hnext, hcur⟩ := link.bounds
  have car := rep.oldest.carried
  have hstop := car.stop_le
  have hlen := rep.occupied
  obtain ⟨hisn, -, outcome⟩ := TCPReceiver.segmentReceived_cases received
  have hisn := hisn.trans (rep.isnAfter link.heard)
  have started : TCPReceiver.dataStart seg ≠ p.conn.sender.isn := by
    unfold TCPReceiver.dataStart
    split
    · next syn =>
      rw [car.seqno, car.syn_iff.mp syn, wrap_add_one, ne_eq, wrap_eq_isn_iff]
      decide
    · next noSyn =>
      have hpos : a ≠ 0 := fun first => noSyn (car.syn_iff.mpr first)
      rw [car.seqno, ne_eq, wrap_eq_isn_iff]
      omega
  refine ⟨hisn, ?_⟩
  rcases outcome with ⟨-, dropped⟩ | ⟨isn, hisn', -, pushed⟩
  · exact absurd (dropped _ hisn) started
  · obtain rfl := Option.some.inj (hisn'.symm.trans hisn)
    rwa [car.streamIndex_eq (by omega) (by omega)] at pushed

/-- A receiver that has come to `_una_seqno` has more to come, and waits for the next byte. -/
theorem Linked.ackPosition_of_waiting (link : Linked p h) (rep : p.Repeats a seg)
    (here : p.conn.sender.unaSeqno = h.conn.receiver.ackPosition) :
    h.conn.receiver.ackPosition = h.conn.receiver.curIndex + 1 := by
  have hstop := rep.oldest.carried.stop_le
  have hlt := rep.oldest.lt_stop
  have hnext := link.outgoing.nextSeqno_le
  have running : ¬ h.conn.receiver.streamOut.inputEnded = true := fun ended => by
    have complete : h.conn.receiver.curIndex = p.accepted.length :=
      (link.delivering.endHeld.ended_iff.mp ended).2
    have hposition : h.conn.receiver.ackPosition = h.conn.receiver.curIndex + 1 + 1 := by
      rw [TCPReceiver.ackPosition, if_pos ended]
    omega
  rw [TCPReceiver.ackPosition, if_neg running]

/-- A FIN that the receiver waits for ends its stream. -/
theorem Linked.ends (link : Linked p h) (rep : p.Repeats a seg) (fin : seg.header.fin = true)
    (room : 0 < h.conn.receiver.reassembler.output.remainingCapacity) (hedge : h.edge < 2 ^ 64)
    (here : h.conn.receiver.curIndex = a - 1 + seg.payload.length)
    (pushed : h.conn.receiver.reassembler.pushSubstring seg.payload (a - 1) seg.header.fin
      = .ok r'.reassembler) : r'.streamOut.inputEnded = true := by
  obtain ⟨hnext, hcur⟩ := link.bounds
  have car := rep.oldest.carried
  have hstop := car.stop_le
  have hindex : h.conn.receiver.curIndex = h.conn.receiver.reassembler.curIndex := rfl
  have hpayload := seg.length_payload_le
  have hlen := rep.occupied
  have hexcerpt : seg.payload <+: p.accepted.drop (a - 1) := by
    rcases car.payload with none | ⟨-, excerpt⟩
    · rw [none]
      exact List.nil_prefix
    · exact excerpt
  have hlast : a - 1 + seg.payload.length + 2 = p.conn.sender.nextSeqno := by
    have arrives := Genuine.arrives (r := h.conn.receiver) (.inr ⟨a, car⟩) (by omega) (by omega)
    have := (arrives.fin fin).2
    rwa [car.streamIndex_eq (by omega) (by omega)] at this
  have complete := link.settled.complete (car.fin fin).1
  rw [fin] at pushed
  exact link.delivering.endHeld.push_ends (by omega) (by omega) room hedge hexcerpt (by omega)
    (by omega) pushed

/-- **The oldest segment moves a receiver with room past `_una_seqno`.**  If the receiver is not
past it already, it waits for this very number, which is a byte, or the FIN with all bytes before
it assembled. -/
theorem Linked.advances (link : Linked p h) (rep : p.Repeats a seg)
    (room : 0 < h.conn.receiver.windowSize) (hedge : h.edge < 2 ^ 64)
    (received : h.conn.receiver.segmentReceived seg = .ok r') :
    p.conn.sender.unaSeqno < r'.ackPosition := by
  have inc := link.incoming
  obtain ⟨-, pushed⟩ := link.pushed rep received
  have grown := TCPReceiver.segmentReceived_grown received
  rcases link.delivering.una_le.lt_or_eq with past | here
  · exact past.trans_le (TCPReceiver.ackPosition_mono grown.curIndex_le grown.ended)
  -- the receiver waits for this very sequence number
  have hposition := link.ackPosition_of_waiting rep here
  have hgrown : h.conn.receiver.curIndex ≤ r'.curIndex := grown.curIndex_le
  have room' : 0 < h.conn.receiver.reassembler.output.remainingCapacity := by
    rwa [inc.receiver.windowSize_eq] at room
  obtain ⟨hnext, hcur⟩ := link.bounds
  have hindex : h.conn.receiver.curIndex = h.conn.receiver.reassembler.curIndex := rfl
  obtain ⟨hstart, byte | ⟨fin, last⟩⟩ := rep.oldest.cases (by omega)
  · have hstop := rep.oldest.carried.stop_le
    have hpayload := seg.length_payload_le
    have : h.conn.receiver.curIndex < r'.curIndex :=
      inc.receiver.reassembler.push_advances (by omega) (by omega) room' (by omega) (by omega) pushed
    rw [TCPReceiver.ackPosition]
    omega
  · rw [TCPReceiver.ackPosition, if_pos (link.ends rep fin room' hedge (by omega) pushed)]
    omega

/-- A FIN that is sent again does not overtake anything: what is before it is acknowledged. -/
theorem Linked.finInOrder (link : Linked p h) (rep : p.Repeats a seg) :
    h.conn.receiver.FinInOrder seg := by
  intro _ isn hisn fin none _ _
  obtain rfl : isn = p.conn.sender.isn := by
    rw [rep.isnAfter link.heard] at hisn
    exact (Option.some.inj hisn).symm
  have hnext := link.outgoing.nextSeqno_le
  have small := link.small
  have hcur : h.conn.receiver.curIndex ≤ p.accepted.length := link.incoming.faithful.curIndex_le
  have hstop := rep.oldest.carried.stop_le
  have hstart := rep.oldest.start_le
  have hreached := link.delivering.una_le
  have hlen := rep.occupied
  rw [rep.oldest.carried.streamIndex_eq (by omega) (by omega)]
  refine .inl (show a - 1 ≤ h.conn.receiver.curIndex from ?_)
  by_cases ended : h.conn.receiver.streamOut.inputEnded = true
  · have complete : h.conn.receiver.curIndex = p.accepted.length :=
      (link.delivering.endHeld.ended_iff.mp ended).2
    omega
  · rw [TCPReceiver.ackPosition, if_neg ended] at hreached
    omega

/-- What is acknowledged with it is not stale. -/
theorem Linked.freshAck (back : Linked h p) (rep : p.Repeats a seg) : h.FreshAck seg := by
  intro ack
  obtain ⟨-, hackno⟩ := back.incoming.ackno_eq (rep.own ack)
  have hposition := back.incoming.ackPosition_le
  have hnext := back.outgoing.nextSeqno_le
  have small := back.small
  rw [hackno, unwrap_wrap _ (by omega) (by omega) (by omega) (by omega)]
  exact back.granted.una_le

/-- **The segment is taken and answered.**  None of the early returns of `segment_received`
applies: it is no RST, it occupies sequence numbers, and its receiver is not in LISTEN unless it
is the SYN. -/
theorem Repeats.taken (rep : p.Repeats a seg) (heard : Heard p h)
    (acted : h.act (.segment seg) = .ok h') :
    ∃ receiver, h.conn.receiver.segmentReceived seg = .ok receiver ∧
      h'.conn = { h.conn with
        timeSinceLastSegReceived := 0, receiver := receiver }.respond seg := by
  have hlen := rep.occupied
  rcases TCPConnection.segmentReceived_branches (act_cases acted).1 with ⟨rst, -⟩ | ⟨-, alive, -⟩ |
    ⟨-, noSyn, listen, -⟩ | ⟨-, -, -, receiver, received, hconn⟩
  · rw [rep.noRst] at rst
    cases rst
  · -- a keep-alive has no sequence numbers
    unfold TCPConnection.isKeepAlive at alive
    split at alive
    · rw [Bool.and_eq_true, beq_iff_eq] at alive
      exact absurd alive.1 hlen
    · cases alive
  · have unknown := TCPConnection.ackno_of_listen listen
    have known : h.conn.receiver.ackno = none := unknown
    rw [(rep.knows heard noSyn).ackno_eq] at known
    cases known
  · exact ⟨receiver, received, hconn⟩

/-- **The second time, the acknowledgment is not news**: the sender of `h` stays as the first one has
left it. -/
theorem Linked.acknowledged_again {h₁ : Host} (back : Linked h p) (back₁ : Linked h₁ p)
    (rep : p.Repeats a seg) (first : h.act (.segment seg) = .ok h₁)
    (sender₁ : h₁.conn.sender
      = { (TCPConnection.acknowledge h.conn.sender seg).fillWindow with segmentsOut := [] }) :
    TCPConnection.acknowledge h₁.conn.sender seg = h₁.conn.sender := by
  by_cases ack : seg.header.ack = true
  swap
  · exact if_neg ack
  have adv := (back.outgoing.effect (back.outgoing.nextSeqno_lt back.small) first).advanced
  have hnext := adv.next_le
  obtain ⟨hnext₁, -⟩ := back₁.bounds
  obtain ⟨known, hackno⟩ := back.incoming.ackno_eq (rep.own ack)
  have hsent := back.heard.ackPosition_le back.incoming back.settled known
  have hpoints : unwrap seg.header.ackno h.conn.sender.isn h.conn.sender.nextSeqno
      = p.conn.receiver.ackPosition := by
    rw [hackno, unwrap_wrap _ (by omega) (by omega) (by omega) (by omega)]
  have hpoints₁ : unwrap seg.header.ackno h₁.conn.sender.isn h₁.conn.sender.nextSeqno
      = p.conn.receiver.ackPosition := by
    rw [hackno, adv.isn_eq, unwrap_wrap _ (by omega) (by omega) (by omega) (by omega)]
  have hack : TCPConnection.acknowledge h.conn.sender seg
      = h.conn.sender.ackReceived seg.header.ackno seg.header.win := if_pos ack
  have again : TCPConnection.acknowledge h₁.conn.sender seg
      = h₁.conn.sender.ackReceived seg.header.ackno seg.header.win := if_pos ack
  rw [again]
  refine ackReceived_again _ ?_ ?_
  · rw [hpoints₁, ← hpoints, sender₁]
    show _ ≤ (TCPConnection.acknowledge h.conn.sender seg).fillWindow.unaSeqno
    rw [fillWindow_unaSeqno, hack]
    exact le_ackReceived_una _ _ (by omega)
  · rw [sender₁]
    show (TCPConnection.acknowledge h.conn.sender seg).fillWindow.windowSize = _
    rw [fillWindow_windowSize, hack]
    exact ackReceived_windowSize _ _ _

/-- **The second time, there is nothing to say but the acknowledgment.**  The first answer has used
up the window, and the second copy opens none. -/
theorem Linked.answered_again {h₁ h₂ : Host} (link : Linked p h) (back : Linked h p)
    (link₁ : Linked p h₁) (back₁ : Linked h₁ p) (poised₁ : h₁.conn.Poised) (rep : p.Repeats a seg)
    (first : h.act (.segment seg) = .ok h₁) (second : h₁.act (.segment seg) = .ok h₂) :
    h₂.conn.segmentsOut = h₁.conn.segmentsOut ++ [h₂.conn.bareAck] := by
  obtain ⟨receiver₁, -, hconn₁⟩ := rep.taken link.heard first
  obtain ⟨receiver₂, -, hconn₂⟩ := rep.taken link₁.heard second
  have sender₁ := congrArg TCPConnection.sender hconn₁
  rw [TCPConnection.respond_sender] at sender₁
  have g := back.outgoing
  have sound := (g.outbound.acknowledged (g.nextSeqno_lt back.small) seg).1
  have spoken : h₁.conn.sender.nextSeqno ≠ 0 := by
    rw [sender₁]
    exact (sound.fillWindow (g.outbound.synAlone_acknowledge seg)).2.2.1
  have again := back.acknowledged_again back₁ rep first sender₁
  rw [hconn₂]
  refine TCPConnection.respond_bare ?_ rep.occupied
  show (TCPConnection.acknowledge h₁.conn.sender seg).fillWindow.segmentsOut = []
  have synced := back₁.outgoing.outbound.sound.inv.toSynced
  rw [again, poised₁.exhausted.fillWindow_segmentsOut synced spoken, sender₁]

/-- **A segment that is delivered twice** is acknowledged past `_una_seqno`, by a segment with
nothing else in it. -/
theorem Linked.twice {h₁ h₂ : Host} (link : Linked p h) (back : Linked h p) (link₁ : Linked p h₁)
    (back₁ : Linked h₁ p) (poised₁ : h₁.conn.Poised) (rep : p.Repeats a seg)
    (room : 0 < h.conn.receiver.windowSize) (hedge : h.edge < 2 ^ 64)
    (first : h.act (.segment seg) = .ok h₁) (second : h₁.act (.segment seg) = .ok h₂) :
    Knows p h₂ ∧ p.conn.sender.unaSeqno < h₂.conn.receiver.ackPosition ∧
      h₂.conn.segmentsOut = h₁.conn.segmentsOut ++ [h₂.conn.bareAck] := by
  obtain ⟨r₁, received₁, hconn₁⟩ := rep.taken link.heard first
  obtain ⟨r₂, received₂, hconn₂⟩ := rep.taken link₁.heard second
  have hr₁ := congrArg TCPConnection.receiver hconn₁
  have hr₂ := congrArg TCPConnection.receiver hconn₂
  rw [TCPConnection.respond_receiver] at hr₁ hr₂
  have advances := link.advances rep room hedge received₁
  have grown := TCPReceiver.segmentReceived_grown received₂
  have hmono := TCPReceiver.ackPosition_mono grown.curIndex_le grown.ended
  refine ⟨?_, ?_, link.answered_again back link₁ back₁ poised₁ rep first second⟩
  · rw [Knows, hr₂]
    exact (link₁.pushed rep received₂).1
  · rw [hr₂]
    rw [hr₁] at hmono
    exact advances.trans_le hmono

/-! ## The acknowledgment arrives -/

/-- Where the bare acknowledgment of `h` points. -/
theorem Linked.bareAck_points (link : Linked p h) (known : Knows p h) :
    h.conn.bareAck.header.ack = true ∧
      unwrap h.conn.bareAck.header.ackno p.conn.sender.isn p.conn.sender.nextSeqno
        = h.conn.receiver.ackPosition := by
  have hsent := link.heard.ackPosition_le link.incoming link.settled known
  obtain ⟨hnext, -⟩ := link.bounds
  obtain ⟨ack, hackno, -⟩ := TCPConnection.fillIn_header (c := h.conn) known.ackno_eq
    { header := { seqno := wrap h.conn.sender.nextSeqno h.conn.sender.isn } }
  refine ⟨ack, ?_⟩
  rw [show h.conn.bareAck.header.ackno = _ from hackno,
    unwrap_wrap _ (by omega) (by omega) (by omega) (by omega)]

/-- The bare acknowledgment is no keep-alive: that would be one below what has been sent. -/
theorem Linked.bareAck_notKeepAlive (back : Linked h p) :
    p.conn.isKeepAlive h.conn.bareAck = false := by
  refine Bool.eq_false_iff.mpr fun alive => ?_
  unfold TCPConnection.isKeepAlive at alive
  split at alive
  · next ackno hackno =>
    obtain ⟨known, hackno'⟩ := back.incoming.ackno_eq hackno
    have hsent := back.heard.ackPosition_le back.incoming back.settled known
    obtain ⟨hnext, -⟩ := back.bounds
    rw [Bool.and_eq_true, beq_iff_eq, beq_iff_eq, h.conn.bareAck_header.1, hackno'] at alive
    have hback : wrap (h.conn.sender.nextSeqno + 1) h.conn.sender.isn
        = wrap p.conn.receiver.ackPosition h.conn.sender.isn := by
      rw [← wrap_add_one, alive.2, WrappingInt32.sub_one_add_one]
    have := congrArg (WrappingInt32.offset · h.conn.sender.isn) hback
    simp only [offset_wrap] at this
    omega
  · cases alive

/-- **The bare acknowledgment of what is held is taken**: `_una_seqno` moves to it and the
retransmissions are forgotten. -/
theorem Linked.answered (link : Linked p h) (back : Linked h p) (known : Knows p h)
    (advances : p.conn.sender.unaSeqno < h.conn.receiver.ackPosition)
    (acted : p.act (.segment h.conn.bareAck) = .ok p') :
    p'.conn.sender.unaSeqno = h.conn.receiver.ackPosition ∧
      p'.conn.sender.consecutiveRetransTimes = 0 := by
  have hsent := link.heard.ackPosition_le link.incoming link.settled known
  obtain ⟨ack, hpoints⟩ := link.bareAck_points known
  rcases TCPConnection.segmentReceived_branches (act_cases acted).1 with ⟨rst, -⟩ | ⟨-, alive, -⟩ |
    ⟨-, -, listen, -⟩ | ⟨-, -, -, receiver, -, hconn⟩
  · rw [h.conn.bareAck_header.2.2] at rst
    cases rst
  · rw [back.bareAck_notKeepAlive] at alive
    cases alive
  · have unsent := TCPState.nextSeqno_of_closed (congrArg TCPState.sender listen)
    have : p.conn.sender.nextSeqno = 0 := unsent
    omega
  · have sender' := congrArg TCPConnection.sender hconn
    rw [TCPConnection.respond_sender] at sender'
    have hack : TCPConnection.acknowledge p.conn.sender h.conn.bareAck
        = p.conn.sender.ackReceived h.conn.bareAck.header.ackno h.conn.bareAck.header.win :=
      if_pos ack
    obtain ⟨huna, hretries⟩ := ackReceived_acceptable (s := p.conn.sender)
      h.conn.bareAck.header.ackno h.conn.bareAck.header.win (by omega) (by omega)
    rw [sender']
    show (TCPConnection.acknowledge p.conn.sender h.conn.bareAck).fillWindow.unaSeqno = _ ∧
      (TCPConnection.acknowledge p.conn.sender h.conn.bareAck).fillWindow.consecutiveRetransTimes = 0
    rw [fillWindow_unaSeqno, fillWindow_retries, hack]
    exact ⟨huna.trans hpoints, hretries⟩

end Host

end Sponge
