import Sponge.Network

/-!
# Acknowledged implies received

A sender drops a segment when it is acknowledged, so an acknowledgment must not run
ahead of what the peer has received.  The acknowledgment number is the write index
plus one for the SYN and one more when the inbound stream **reports its end**, and
that report is where it can go wrong:

* `acknowledged_received` — as long as no bare FIN overtakes the byte in front of
  it, everything acknowledged has been received and an inbound stream that has ended
  is the whole outbound stream of the peer.
* `acknowledged_lost` — a bare FIN that arrives before the last byte ends the stream
  at once.  The FIN's acknowledgment number then covers the byte that never arrived,
  and the sender drops it.

Over `Incoming`, the invariant adds that the end of the stream is known only when
its last byte is held (`Delivering`), that `_una_seqno` and every acknowledgment in
flight are at most the acknowledged position, and that a sender has finished only
with its whole stream sent (`Settled`).

### What the guard excludes

`FinInOrder` excludes one delivery: a FIN without bytes, while the byte in front of it is
neither assembled nor stored, that finds room and is not past the window.  A network that
neither loses nor reorders never makes it.  A FIN that carries the last byte may overtake
anything.  The second guard, that nothing is written after the end, is about the owner;
without it the FIN would not be the end of what was accepted.

### Two kinds of acknowledgments

`_una_seqno` and the acknowledgments in flight are bounded by the position of the receiver,
and both bounds are needed: the second says that whatever is delivered next keeps the
first.  The acknowledgment of an old position is never wrong, since the position does not go
back (`Reception.ackPosition_le`).
-/

namespace Sponge

open Runs TCPSender

namespace TCPReceiver

/-- A bare FIN that reaches the reassembler does not overtake the byte in front of
it.  Segments with RST do not get that far. -/
def FinInOrder (r : TCPReceiver) (seg : TCPSegment) : Prop :=
  seg.header.rst = false → ∀ isn ∈ r.isnAfter seg,
    r.reassembler.BareEofInOrder seg.payload (r.streamIndex seg isn) seg.header.fin

instance (r : TCPReceiver) (seg : TCPSegment) : Decidable (r.FinInOrder seg) :=
  inferInstanceAs (Decidable (_ → _))

end TCPReceiver

namespace Host

variable {h h' p p' : Host} {op : TCPConnection.Op}

/-! ## The sending side -/

/-- After the FIN no more bytes are accepted. -/
theorem Outgoing.accepted_of_ended (g : h.Outgoing) (noWrite : h.conn.NotAfterEnd op)
    (ended : h.conn.sender.isTransmissionEnded = true) : h.conn.acceptedBy op = [] := by
  cases op with
  | write data =>
      have closed := g.outbound.sound.inv.closed ended
      rw [show h.conn.sender.stream.inputIsEnd = false from noWrite] at closed
      cases closed
  | _ => rfl

/-- The FIN is sent after the whole stream, and what is no longer outstanding has been
acknowledged.  The first half is where writing after the end would do harm: the FIN would then
stand in the middle of what was accepted. -/
structure Settled (h : Host) : Prop where
  complete : h.conn.sender.isTransmissionEnded = true →
    h.conn.sender.nextSeqno = h.accepted.length + 2
  removed : ∀ seg ∈ h.removed, ∃ a, At h.accepted h.conn.sender.isn a seg ∧
    a + seg.lengthInSequenceSpace ≤ h.conn.sender.unaSeqno

/-- A new host has dropped nothing. -/
theorem settled_new (cfg : TCPConfig) : (new cfg).Settled :=
  ⟨by simp [new, TCPConnection.new, TCPSender.new], by simp [new]⟩

/-- One operation: what is dropped lies below `_una_seqno`, and the FIN comes last. -/
theorem Settled.act (settled : h.Settled) (g : h.Outgoing)
    (hnext : h.conn.sender.nextSeqno < 2 ^ 64)
    (refused : h.conn.sender.isTransmissionEnded = true → h.conn.acceptedBy op = [])
    (hact : h.act op = .ok h') : h'.Settled := by
  have adv := (g.effect hnext hact).advanced
  obtain ⟨-, haccepted, -, -, hremoved⟩ := act_cases hact
  refine ⟨fun ended' => ?_, fun seg hseg => ?_⟩
  · cases ended : h.conn.sender.isTransmissionEnded with
    | false => exact adv.completed ended ended'
    | true =>
        rw [haccepted, refused ended, List.append_nil,
          (adv.frozen ended).2, settled.complete ended]
  · rw [hremoved] at hseg
    rcases List.mem_append.mp hseg with hold | hnew
    · obtain ⟨a, hat, hle⟩ := settled.removed seg hold
      refine ⟨a, ?_, hle.trans adv.una_le⟩
      rw [haccepted, adv.isn_eq]
      exact hat.grow _
    · obtain ⟨hout, hgone⟩ := List.mem_filter.mp hnew
      rw [adv.isn_eq]
      exact (adv.released seg hout).resolve_left (of_decide_eq_true hgone)

theorem Settled.transmit (settled : h.Settled) : h.transmit.Settled := by
  rw [transmit_frame h]
  exact ⟨settled.complete, settled.removed⟩

/-! ## The receiving side -/

/-- What `h` has acknowledged of the stream of `p` it has received.  `acks` is about every
acknowledgment that was ever sent, because any of them may be delivered at any time; `una_le` is
what `p` has made of those that were. -/
structure Delivering (p h : Host) : Prop where
  endHeld : h.conn.receiver.reassembler.EndHeld p.accepted h.popped
  known : h.conn.receiver.reassembler.eof = true → p.conn.sender.isTransmissionEnded = true
  una_le : p.conn.sender.unaSeqno ≤ h.conn.receiver.ackPosition
  acks : ∀ seg ∈ h.emitted, seg.header.ack = true →
    ∃ q ≤ h.conn.receiver.ackPosition, seg.header.ackno = wrap q p.conn.sender.isn

/-- Nothing has been acknowledged. -/
theorem delivering_new {cfg cfg' : TCPConfig} (hcap : cfg'.recvCapacity < 2 ^ 64) :
    Delivering (new cfg) (new cfg') where
  endHeld := StreamReassembler.endHeld_new [] hcap
  known := by simp [new, TCPConnection.new, TCPReceiver.new, StreamReassembler.new]
  una_le := Nat.zero_le _
  acks := by simp [emitted, new, TCPConnection.new]

/-- The acknowledged position never moves backwards. -/
theorem Reception.ackPosition_le (reception : Reception p h op h') :
    h.conn.receiver.ackPosition ≤ h'.conn.receiver.ackPosition := by
  obtain ⟨hcur, hended⟩ :
      h.conn.receiver.reassembler.curIndex ≤ h'.conn.receiver.reassembler.curIndex ∧
        (h.conn.receiver.reassembler.output.inputEnded = true →
          h'.conn.receiver.reassembler.output.inputEnded = true) := by
    cases reception with
    | unchanged _ same =>
        rw [same]
        exact ⟨le_rfl, id⟩
    | error _ reassembler =>
        rw [reassembler]
        exact ⟨le_rfl, id⟩
    | read len _ reassembler =>
        rw [reassembler]
        exact ⟨le_rfl, id⟩
    | push _ _ _ _ _ _ _ _ pushed =>
        have grown := StreamReassembler.pushSubstring_grown pushed
        exact ⟨grown.curIndex_le, grown.ended⟩
  exact TCPReceiver.ackPosition_mono hcur hended

/-- A host acknowledges at most what its peer has accepted, with the SYN and the FIN. -/
theorem Incoming.ackPosition_le (inc : Incoming p h) :
    h.conn.receiver.ackPosition ≤ p.accepted.length + 2 := by
  have hcur : h.conn.receiver.curIndex ≤ p.accepted.length := inc.faithful.curIndex_le
  unfold TCPReceiver.ackPosition
  split <;> omega

/-- **The end of the stream arrives in order**, with the FIN at the end of all that
the peer has accepted. -/
theorem Delivering.endHeld_act (d : Delivering p h) (settled : p.Settled)
    (inOrder : ∀ seg, op = .segment seg → h.conn.receiver.FinInOrder seg)
    (reception : Reception p h op h') :
    h'.conn.receiver.reassembler.EndHeld p.accepted h'.popped ∧
      (h'.conn.receiver.reassembler.eof = true →
        p.conn.sender.isTransmissionEnded = true) := by
  cases reception with
  | unchanged popped same =>
      rw [popped, same]
      exact ⟨d.endHeld, d.known⟩
  | error popped reassembler =>
      rw [popped, reassembler]
      exact ⟨d.endHeld.setError, d.known⟩
  | read len popped reassembler =>
      rw [popped, reassembler]
      exact ⟨d.endHeld.popOutput len, d.known⟩
  | push seg popped hop noRst isnAfter arrives range hne pushed =>
      obtain ⟨hcur, hlen⟩ := range.bounds hne
      have hfin : seg.header.fin = true →
          h.conn.receiver.streamIndex seg p.conn.sender.isn + seg.payload.length
            = p.accepted.length := by
        intro fin
        obtain ⟨ended, hnext⟩ := arrives.fin fin
        have := settled.complete ended
        omega
      rw [popped]
      refine ⟨d.endHeld.push hcur hlen arrives.excerpt hfin ?_ pushed, fun known => ?_⟩
      · exact inOrder seg hop noRst _ isnAfter
      · rcases d.endHeld.faithful.inv.eof_push hcur hlen pushed known with before | fin
        · exact d.known before
        · exact (arrives.fin fin).1

/-- **The receiving host acts.**  Its position only moves forward, so what was acknowledged before
is still received; a new acknowledgment names the position of now. -/
theorem Delivering.act (d : Delivering p h) (inc : Incoming p h) (settled : p.Settled)
    (g : h.Outgoing) (small : h.accepted.length < 2 ^ 31 - 2)
    (inOrder : ∀ seg, op = .segment seg → h.conn.receiver.FinInOrder seg)
    (fed : Fed p h op h') : Delivering p h' := by
  obtain ⟨reception, -, isn⟩ := fed.reception inc
  obtain ⟨endHeld, known⟩ := d.endHeld_act settled inOrder reception
  have hle := reception.ackPosition_le
  refine ⟨endHeld, known, d.una_le.trans hle, fun seg hseg hack => ?_⟩
  rcases g.emitted_act (g.nextSeqno_lt small) fed.acted hseg with hold | ⟨-, hnew⟩
  · obtain ⟨q, hq, hackno⟩ := d.acks seg hold hack
    exact ⟨q, hq.trans hle, hackno⟩
  · -- a new acknowledgment is the receiver's own
    have hackno := hnew hack
    unfold TCPReceiver.ackno at hackno
    cases hisn : h'.conn.receiver.isn with
    | none => simp [hisn] at hackno
    | some isn' =>
        simp only [hisn, Option.some.injEq] at hackno
        exact ⟨_, le_rfl, by rw [← hackno, isn isn' hisn]⟩

/-- Only a segment brings an acknowledgment. -/
theorem ackedBy_eq_some {ackno : WrappingInt32} (hack : TCPConnection.ackedBy op = some ackno) :
    ∃ seg, op = .segment seg ∧ seg.header.ack = true ∧ seg.header.ackno = ackno := by
  cases op with
  | segment seg =>
      simp only [TCPConnection.ackedBy, TCPConnection.acknoOf] at hack
      split at hack
      · next ack => exact ⟨seg, rfl, ack, Option.some.inj hack⟩
      · cases hack
  | _ => cases hack

/-- **The sending host acts.**  An acknowledgment unwraps to the position it was made
for, which the receiver has reached. -/
theorem Delivering.peer (d : Delivering p h) (inc : Incoming p h) (g : p.Outgoing)
    (small : p.accepted.length < 2 ^ 31 - 2) (noWrite : p.conn.NotAfterEnd op)
    (fed : Fed h p op p') : Delivering p' h := by
  have effect := g.effect (g.nextSeqno_lt small) fed.acted
  have adv := effect.advanced
  obtain ⟨-, haccepted, -⟩ := act_cases fed.acted
  refine ⟨?_, fun known => (adv.frozen (d.known known)).1, ?_, ?_⟩
  · rw [haccepted]
    exact d.endHeld.grow _ fun known => g.accepted_of_ended noWrite (d.known known)
  · rcases effect.una with hsame | ⟨ackno, hack, huna⟩
    · rw [hsame]
      exact d.una_le
    · obtain ⟨seg, hop, ack, rfl⟩ := ackedBy_eq_some hack
      obtain ⟨q, hq, hackno⟩ := d.acks seg (fed.sent seg hop) ack
      have := inc.ackPosition_le
      have := g.nextSeqno_le
      rw [huna, hackno, unwrap_wrap _ (by omega) (by omega) (by omega) (by omega)]
      exact hq
  · rw [adv.isn_eq]
    exact d.acks

theorem Delivering.transmit (d : Delivering p h) : Delivering p h.transmit := by
  have hacks := d.acks
  rw [← emitted_transmit] at hacks
  rw [transmit_frame h] at hacks ⊢
  exact ⟨d.endHeld, d.known, d.una_le, hacks⟩

theorem Delivering.peer_transmit (d : Delivering p h) : Delivering p.transmit h := by
  rw [transmit_frame p]
  exact ⟨d.endHeld, d.known, d.una_le, d.acks⟩

/-! ## What follows for the streams -/

/-- An inbound stream that has ended is the whole outbound stream of the peer. -/
theorem Delivering.written_of_ended (d : Delivering p h)
    (ended : h.conn.receiver.streamOut.inputEnded = true) : h.written = p.accepted := by
  have hwritten : h.written = _ := d.endHeld.faithful.written_eq
  rw [hwritten, (d.endHeld.ended_iff.mp ended).2, List.take_length]

/-- The payload of a segment below `_una_seqno` is in the stream of the receiver. -/
theorem Delivering.payload_written (d : Delivering p h) {a : ℕ} {seg : TCPSegment}
    (hat : At p.accepted p.conn.sender.isn a seg)
    (hle : a + seg.lengthInSequenceSpace ≤ p.conn.sender.unaSeqno) (payload : seg.payload ≠ []) :
    0 < a ∧ seg.payload <+: h.written.drop (a - 1) := by
  obtain ⟨hpos, hpre⟩ := hat.payload.resolve_left payload
  refine ⟨hpos, ?_⟩
  by_cases ended : h.conn.receiver.streamOut.inputEnded = true
  · rw [d.written_of_ended ended]
    exact hpre
  · -- without the end of the stream, the acknowledged position is the write index
    have hlen := seg.length_payload_le
    have hcur := d.una_le
    rw [TCPReceiver.ackPosition, if_neg ended] at hcur
    have hwritten : h.written = p.accepted.take h.conn.receiver.curIndex :=
      d.endHeld.faithful.written_eq
    rw [hwritten, List.drop_take]
    exact List.prefix_take_iff.mpr ⟨hpre, by omega⟩

end Host

namespace Network

open Host

/-! ## Runs of the network -/

/-- No `write` after `end_input_stream`. -/
def NoWriteAfterEnd (n : Network) : Op → Prop
  | .write side data => (n side).conn.NotAfterEnd (.write data)
  | _ => True

/-- What the host does for an operation of the network is no write after the end either. -/
theorem NoWriteAfterEnd.act {n : Network} {op : Op} (h : n.NoWriteAfterEnd op) {side : Side}
    {act : TCPConnection.Op} (written : ∀ data, act = .write data → op = .write side data) :
    (n side).conn.NotAfterEnd act := by
  cases act with
  | write data =>
      rw [written data rfl] at h
      exact h
  | _ => trivial

/-- No bare FIN that is delivered overtakes the byte in front of it. -/
def FinInOrder (n : Network) : Op → Prop
  | .deliver side i => ∀ seg ∈ (n side.peer).wire[i]?, (n side).conn.receiver.FinInOrder seg
  | _ => True

instance decidableNoWriteAfterEnd (n : Network) : ∀ op, Decidable (n.NoWriteAfterEnd op)
  | .write side data => inferInstanceAs (Decidable ((n side).conn.NotAfterEnd (.write data)))
  | .connect _ | .endInputStream _ | .tick _ _ | .read _ _ | .transmit _ | .deliver _ _ =>
      inferInstanceAs (Decidable True)

instance decidableFinInOrder (n : Network) : ∀ op, Decidable (n.FinInOrder op)
  | .deliver side i => inferInstanceAs (Decidable (∀ seg ∈ (n side.peer).wire[i]?, _))
  | .connect _ | .write _ _ | .endInputStream _ | .tick _ _ | .read _ _ | .transmit _ =>
      inferInstanceAs (Decidable True)

/-- Both hosts have received what they acknowledge. -/
def Acknowledged (n : Network) : Prop :=
  ∀ side, (n side).Settled ∧ Delivering (n side.peer) (n side)

/-- At the start nothing is acknowledged. -/
theorem acknowledged_start {cfg : Side → TCPConfig}
    (hrecv : ∀ side, (cfg side).recvCapacity < 2 ^ 64) : (start cfg).Acknowledged := fun side =>
  ⟨settled_new (cfg side), delivering_new (hrecv side)⟩

/-- **Every step acknowledges only what was received.**  Each direction takes its turn as the one
that receives and as the one that is acknowledged; the guard on FINs is needed for the first, and
the guard on writing for the second. -/
theorem Acknowledged.step {n n' : Network} {op : Op} (acknowledged : n.Acknowledged)
    (faithful : n.Faithful) (bounded : n.Bounded) (noWrite : n.NoWriteAfterEnd op)
    (inOrder : n.FinInOrder op) (h : n.step op = .ok n') : n'.Acknowledged := by
  rcases step_cases h with rfl | ⟨side, rfl⟩ | ⟨side, act, h', hact, rfl, sent, written⟩
  · exact acknowledged
  · obtain ⟨settled, delivering⟩ := acknowledged side
    obtain ⟨settled', delivering'⟩ := acknowledged side.peer
    rw [Side.peer_peer] at delivering'
    exact Side.forall_update (R := fun p h => h.Settled ∧ Delivering p h)
      ⟨settled.transmit, delivering.transmit⟩ ⟨settled', delivering'.peer_transmit⟩
  · obtain ⟨settled, delivering⟩ := acknowledged side
    obtain ⟨settled', delivering'⟩ := acknowledged side.peer
    obtain ⟨outgoing, incoming⟩ := faithful side
    have incoming' := (faithful side.peer).2
    rw [Side.peer_peer] at delivering' incoming'
    have fed := faithful.fed bounded hact fun seg hop => (sent seg hop).imp fun _ => And.right
    have silent := noWrite.act written
    have ordered : ∀ seg, act = .segment seg → (n side).conn.receiver.FinInOrder seg := by
      intro seg hop
      obtain ⟨i, rfl, hi⟩ := sent seg hop
      exact inOrder seg hi
    have small := bounded side
    exact Side.forall_update (R := fun p h => h.Settled ∧ Delivering p h)
      ⟨settled.act outgoing (outgoing.nextSeqno_lt small) (outgoing.accepted_of_ended silent) hact,
        delivering.act incoming settled' outgoing small ordered fed⟩
      ⟨settled', delivering'.peer incoming' outgoing small silent fed⟩

/-- **Acknowledged implies received.**  As long as no bare FIN overtakes the byte in
front of it: every payload byte of a segment that a sender has dropped on an
acknowledgment has been written, at its place, into the inbound stream of the peer;
and an inbound stream that has ended is exactly what the peer accepted. -/
theorem acknowledged_received {cfg : Side → TCPConfig}
    (hrecv : ∀ side, (cfg side).recvCapacity < 2 ^ 64)
    (hsend : ∀ side, (cfg side).sendCapacity < 2 ^ 64) {n : Network}
    (run : GuardedRun step (fun n op => n.NoWriteAfterEnd op ∧ n.FinInOrder op) (start cfg) n)
    (bounded : n.Bounded) (side : Side) :
    (∀ seg ∈ (n side).removed, seg.payload ≠ [] → ∃ i < 2 ^ 31,
      seg.header.seqno = wrap (i + 1) (n side).conn.sender.isn ∧
        seg.payload <+: (n side.peer).written.drop i) ∧
    ((n side.peer).conn.receiver.streamOut.inputEnded = true →
      (n side.peer).written = (n side).accepted) := by
  obtain ⟨faithful, acknowledged⟩ : n.Faithful ∧ n.Acknowledged := by
    refine run.invariant (fun n => n.Bounded → n.Faithful ∧ n.Acknowledged)
      (fun _ => ⟨faithful_start hrecv hsend, acknowledged_start hrecv⟩)
      (fun n op n' ih guard h bounded' => ?_) bounded
    have bounded : n.Bounded := bounded'.before h
    obtain ⟨faithful, acknowledged⟩ := ih bounded
    exact ⟨faithful.step bounded h,
      acknowledged.step faithful bounded guard.1 guard.2 h⟩
  have settled := (acknowledged side).1
  obtain ⟨-, delivering⟩ := acknowledged side.peer
  obtain ⟨-, incoming⟩ := faithful side.peer
  rw [Side.peer_peer] at delivering incoming
  refine ⟨fun seg hseg payload => ?_, delivering.written_of_ended⟩
  obtain ⟨a, hat, hle⟩ := settled.removed seg hseg
  obtain ⟨hpos, hpre⟩ := delivering.payload_written hat hle payload
  have hsmall := bounded side
  have hack := delivering.una_le.trans incoming.ackPosition_le
  refine ⟨a - 1, by omega, ?_, hpre⟩
  rw [Nat.sub_add_cancel hpos]
  exact hat.seqno

/-- The handshake, one byte and the end of the stream, all on the network. -/
def oneByteSent : List Op :=
  [.connect .a, .transmit .a, .deliver .b 0, .transmit .b, .deliver .a 0,
    .write .a [97], .endInputStream .a, .transmit .a, .transmit .a, .transmit .a]

theorem acknowledged_received_inOrder :
    ∃ n, execute step (start nearWrap)
        (oneByteSent ++ [.deliver .b 2, .deliver .b 3, .transmit .b, .deliver .a 1]) = .ok n ∧
      (∃ seg ∈ (n .a).removed, seg.payload = [97]) ∧
      (n .b).conn.receiver.streamOut.inputEnded = true ∧
      (n .b).written = (n .a).accepted := by
  obtain ⟨n, done, admitted, bounded, removed, ended⟩ : ∃ n, execute step (start nearWrap)
        (oneByteSent ++ [.deliver .b 2, .deliver .b 3, .transmit .b, .deliver .a 1]) = .ok n ∧
      Admitted step (fun n op => n.NoWriteAfterEnd op ∧ n.FinInOrder op) (start nearWrap)
        (oneByteSent ++ [.deliver .b 2, .deliver .b 3, .transmit .b, .deliver .a 1]) ∧
      n.Bounded ∧ (∃ seg ∈ (n .a).removed, seg.payload = [97]) ∧
      (n .b).conn.receiver.streamOut.inputEnded = true :=
    EndsIn.exists_ok (by decide +kernel)
  have hrecv : ∀ side, (nearWrap side).recvCapacity < 2 ^ 64 := by decide
  have hsend : ∀ side, (nearWrap side).sendCapacity < 2 ^ 64 := by decide
  have run := GuardedRun.of_execute admitted done
  have received := acknowledged_received hrecv hsend run bounded .a
  exact ⟨n, done, removed, ended, received.2 ended⟩

/-- **An acknowledged byte can be lost.**  The segment with the only byte does not
arrive; the FIN does, ends the inbound stream with nothing in it, and is answered by
an acknowledgment number past the byte.  The sender drops the segment. -/
theorem acknowledged_lost :
    ∃ n, GuardedRun step NoWriteAfterEnd (start nearWrap) n ∧ n.Bounded ∧
      (n .a).accepted = [97] ∧ (∃ seg ∈ (n .a).removed, seg.payload = [97]) ∧
      (n .b).conn.receiver.streamOut.inputEnded = true ∧ (n .b).written = [] := by
  obtain ⟨n, done, admitted, lost⟩ : ∃ n, execute step (start nearWrap)
        (oneByteSent ++ [.deliver .b 3, .transmit .b, .deliver .a 1]) = .ok n ∧
      Admitted step NoWriteAfterEnd (start nearWrap)
        (oneByteSent ++ [.deliver .b 3, .transmit .b, .deliver .a 1]) ∧ n.Bounded ∧
      (n .a).accepted = [97] ∧ (∃ seg ∈ (n .a).removed, seg.payload = [97]) ∧
      (n .b).conn.receiver.streamOut.inputEnded = true ∧ (n .b).written = [] :=
    EndsIn.exists_ok (by decide +kernel)
  exact ⟨n, GuardedRun.of_execute admitted done, lost⟩

end Network

end Sponge
