import Sponge.Network.FlowControl

/-!
# Contact

What a host has from its peer, the peer has sent, and what the peer takes as acknowledged,
the host has acknowledged.  Neither depends on what the network does.

* `acknowledges_sent` — an acknowledgment never points past what has been sent, and only a host that
  knows the initial sequence number acknowledges anything.  So a sender whose SYN is acknowledged has
  a peer that is in the conversation with it.

A sender drops an acknowledgment that points past `_next_seqno`, and a connection in LISTEN
drops everything but a SYN.  Both would stop a conversation for good; `Heard` is why neither
happens.

### Why it is not obvious

A receiver acknowledges where its stream has come to, and adds one when the stream has
ended.  It does not know what its peer has sent.  That the sum does not pass `_next_seqno`
takes both halves of `Heard`: what is held was sent (`sent`), and a stream that has ended
was ended by a FIN that was sent (`ended`), so that the extra number is the one the FIN has
taken.

Unlike in `Network.Acknowledgment`, no FIN has to be in order here.  A stream that ends too
early is acknowledged too early, but still not past what was sent.
-/

namespace Sponge

open Runs TCPSender

namespace StreamReassembler

/-- A push adds nothing past its end. -/
theorem Inv.holds_of_push {r r' : StreamReassembler} (inv : r.Inv) {data : List UInt8} {index : ℕ}
    {eof : Bool} (hcur : r.curIndex < 2 ^ 64) (hlen : index + data.length < 2 ^ 64)
    (h : r.pushSubstring data index eof = .ok r') {i : ℕ} (holds : r'.Holds i) :
    r.Holds i ∨ (data ≠ [] ∧ i < index + data.length) := by
  rcases inv.push_cases hcur hlen h with ⟨-, rfl⟩ | ⟨-, -, stored⟩ | ⟨-, fresh, stored⟩
  · exact .inl holds
  · refine .inl (((stored.holds i).mp holds).resolve_right fun covers => ?_)
    have hstart : r.curIndex ≤ i := covers.1
    have hstop : i < r.curIndex := covers.2
    omega
  · refine ((stored.holds i).mp holds).imp_right fun covers => ?_
    have hstart : max index r.curIndex ≤ i := covers.1
    have hstop : i < index + data.length := covers.2.trans_le (clipped_stop_le fresh)
    refine ⟨fun none => ?_, hstop⟩
    rw [none, List.length_nil] at hstop
    omega

end StreamReassembler

namespace TCPConnection

/-- A receiver does not forget that it was spoken to. -/
theorem step_isn {c c' : TCPConnection} {op : Op} (stepped : c.step op = .ok c') :
    c'.receiver.isn = c.receiver.isn ∨
      ∃ seg, op = .segment seg ∧ c'.receiver.isn = c.receiver.isnAfter seg := by
  rcases step_receiver stepped with ⟨-, same | failed⟩ | ⟨len, -, read⟩ | ⟨seg, hop, -, received⟩
  · exact .inl (by rw [same])
  · exact .inl (by rw [failed]; rfl)
  · exact .inl (by rw [read]; rfl)
  · exact .inr ⟨seg, hop, (TCPReceiver.segmentReceived_cases received).1⟩

end TCPConnection

namespace Host

variable {h h' p p' : Host} {op : TCPConnection.Op} {seg : TCPSegment}

/-! ## One direction -/

/-- The host knows the initial sequence number of its peer. -/
def Knows (p h : Host) : Prop := h.conn.receiver.isn = some p.conn.sender.isn

/-- What `h` has and says of the stream of `p`, and what `p` makes of it: `h` has nothing that `p`
has not sent, not even its end, and says nothing before it knows where the stream starts; and `p`
believes what was said. -/
structure Heard (p h : Host) : Prop where
  synSent : Knows p h → p.conn.sender.nextSeqno ≠ 0
  sent : ∀ i, h.conn.receiver.reassembler.Holds i → i + 1 < p.conn.sender.nextSeqno
  ended : h.conn.receiver.streamOut.inputEnded = true ∨ h.conn.receiver.reassembler.eof = true →
    p.conn.sender.isTransmissionEnded = true
  acks : ∀ seg ∈ h.emitted, seg.header.ack = true → Knows p h ∧
    ∃ q ≤ h.conn.receiver.ackPosition, seg.header.ackno = wrap q p.conn.sender.isn
  una : p.conn.sender.unaSeqno ≠ 0 → Knows p h

/-- Nobody has said anything. -/
theorem heard_new (cfg cfg' : TCPConfig) : Heard (new cfg) (new cfg') where
  synSent known := nomatch known
  sent i holds := by
    rcases holds with below | ⟨c, hc, -⟩
    · exact absurd below (Nat.not_lt_zero i)
    · exact absurd hc List.not_mem_nil
  ended known := by
    rcases known with known | known <;> cases known
  acks _ hseg := absurd hseg List.not_mem_nil
  una moved := absurd rfl moved

/-- A segment with a payload ends at or below `_next_seqno`. -/
theorem Outgoing.streamIndex_le (g : p.Outgoing) (small : p.accepted.length < 2 ^ 31 - 2)
    (inc : Incoming p h) (hseg : seg ∈ p.emitted) (payload : seg.payload ≠ []) :
    h.conn.receiver.streamIndex seg p.conn.sender.isn + seg.payload.length + 1
      ≤ p.conn.sender.nextSeqno := by
  have hnext := g.nextSeqno_le
  have hcur : h.conn.receiver.curIndex ≤ p.accepted.length := inc.faithful.curIndex_le
  have hlen := seg.length_payload_le
  have some : 0 < seg.payload.length := List.length_pos_iff.mpr payload
  rcases g.genuine seg hseg with none | ⟨a, car⟩
  · omega
  · have hstop := car.stop_le
    rw [car.streamIndex_eq (by omega) (by omega)]
    rcases car.payload with none | ⟨hpos, -⟩
    · exact absurd none payload
    · omega

/-- A host does not forget the initial sequence number, nor take another one. -/
theorem Knows.act (known : Knows p h) (inc : Incoming p h) (fed : Fed p h op h') : Knows p h' := by
  obtain ⟨-, -, isn⟩ := fed.reception inc
  rcases TCPConnection.step_isn (act_cases fed.acted).1 with same | ⟨seg, -, after⟩
  · rw [Knows, same]
    exact known
  · rw [TCPReceiver.isnAfter] at after
    split at after
    · rw [Knows, after, isn _ after]
    · rw [Knows, after]
      exact known

/-- A SYN is known only from a peer that has sent it. -/
theorem Heard.synSent_act (heard : Heard p h) (fed : Fed p h op h') (known : Knows p h') :
    p.conn.sender.nextSeqno ≠ 0 := by
  rcases TCPConnection.step_isn (act_cases fed.acted).1 with same | ⟨seg, hop, after⟩
  · exact heard.synSent (same.symm.trans known)
  · rw [TCPReceiver.isnAfter] at after
    split at after
    · -- the first SYN is a segment that the peer has sent
      next syn =>
      rcases fed.peer.genuine seg (fed.sent seg hop) with none | ⟨a, car⟩
      · simp [TCPSegment.lengthInSequenceSpace, syn] at none
      · have hstop := car.stop_le
        simp only [TCPSegment.lengthInSequenceSpace, syn, if_true] at hstop
        omega
    · exact heard.synSent (after.symm.trans known)

/-- What is held after an operation was sent as well. -/
theorem Heard.sent_act (heard : Heard p h) (inc : Incoming p h) (fed : Fed p h op h') :
    ∀ i, h'.conn.receiver.reassembler.Holds i → i + 1 < p.conn.sender.nextSeqno := by
  cases (fed.reception inc).1 with
  | unchanged _ same =>
      rw [same]
      exact heard.sent
  | error _ reassembler =>
      rw [reassembler]
      exact heard.sent
  | read len _ reassembler =>
      rw [reassembler]
      exact heard.sent
  | push seg _ hop _ _ _ range hne pushed =>
      obtain ⟨hcur, hlen⟩ := range.bounds hne
      intro i holds
      rcases inc.receiver.reassembler.holds_of_push hcur hlen pushed holds with
        before | ⟨payload, below⟩
      · exact heard.sent i before
      · have hstop := fed.peer.streamIndex_le fed.small inc (fed.sent seg hop) payload
        omega

/-- **The receiving host acts.**  What it has now it had before or was just given by `p`; and what
it says is the position of now, which it knows only with the initial sequence number. -/
theorem Heard.act (heard : Heard p h) (inc : Incoming p h) (g : h.Outgoing)
    (small : h.accepted.length < 2 ^ 31 - 2) (fed : Fed p h op h') : Heard p h' := by
  obtain ⟨reception, -, isn⟩ := fed.reception inc
  obtain ⟨extra, hextra, hnew⟩ := fed.emitted_new inc g small
  have hack := reception.ackPosition_le
  refine ⟨heard.synSent_act fed, heard.sent_act inc fed, reception.known inc.receiver heard.ended,
    fun seg hseg ack => ?_, fun moved => (heard.una moved).act inc fed⟩
  · rw [hextra] at hseg
    rcases List.mem_append.mp hseg with hold | hseg'
    · obtain ⟨known, q, hq, hackno⟩ := heard.acks seg hold ack
      exact ⟨known.act inc fed, q, hq.trans hack, hackno⟩
    · refine ⟨?_, _, le_rfl, (hnew seg hseg' ack).1⟩
      rcases g.emitted_act (g.nextSeqno_lt small) fed.acted (hextra ▸ hseg) with hold | ⟨-, mine⟩
      · exact (heard.acks seg hold ack).1.act inc fed
      · have hackno := mine ack
        unfold TCPReceiver.ackno at hackno
        cases hisn : h'.conn.receiver.isn with
        | none => simp [hisn] at hackno
        | some isn' => rw [Knows, hisn, isn isn' hisn]

/-- **The sending host acts.**  It can only have sent more, so everything said of it stays true;
and if it believes something new, that was in a segment of `h`. -/
theorem Heard.peer (heard : Heard p h) (g : p.Outgoing) (small : p.accepted.length < 2 ^ 31 - 2)
    (fed : Fed h p op p') : Heard p' h := by
  have effect := g.effect (g.nextSeqno_lt small) fed.acted
  have adv := effect.advanced
  have known_iff : Knows p' h ↔ Knows p h := by rw [Knows, Knows, adv.isn_eq]
  have hnext := adv.next_le
  refine ⟨fun known => ?_, fun i holds => ?_, fun ended => (adv.frozen (heard.ended ended)).1,
    fun seg hseg ack => ?_, fun moved => known_iff.mpr ?_⟩
  · have := heard.synSent (known_iff.mp known)
    omega
  · have := heard.sent i holds
    omega
  · obtain ⟨known, hq⟩ := heard.acks seg hseg ack
    rw [adv.isn_eq]
    exact ⟨known_iff.mpr known, hq⟩
  · rcases effect.una with same | ⟨ackno, hack, -⟩
    · exact heard.una (same ▸ moved)
    · obtain ⟨seg, hop, ack, -⟩ := ackedBy_eq_some hack
      exact (heard.acks seg (fed.sent seg hop) ack).1

theorem Heard.transmit (heard : Heard p h) : Heard p h.transmit := by
  obtain ⟨synSent, sent, ended, acks, una⟩ := heard
  unfold Knows at *
  rw [← emitted_transmit] at acks
  rw [transmit_frame h] at acks ⊢
  exact ⟨synSent, sent, ended, acks, una⟩

theorem Heard.peer_transmit (heard : Heard p h) : Heard p.transmit h := by
  obtain ⟨synSent, sent, ended, acks, una⟩ := heard
  rw [transmit_frame p]
  exact ⟨synSent, sent, ended, acks, una⟩

/-- **Nothing is acknowledged that was not sent.**  If the stream has not ended, the last byte
assembled was sent; if it has, so was the FIN, and with it every byte. -/
theorem Heard.ackPosition_le (heard : Heard p h) (inc : Incoming p h) (settled : p.Settled)
    (known : Knows p h) : h.conn.receiver.ackPosition ≤ p.conn.sender.nextSeqno := by
  have syn := heard.synSent known
  rw [TCPReceiver.ackPosition]
  split
  · next ended =>
    have hcur : h.conn.receiver.curIndex ≤ p.accepted.length := inc.faithful.curIndex_le
    rw [settled.complete (heard.ended (.inl ended))]
    omega
  · by_cases first : h.conn.receiver.curIndex = 0
    · omega
    · have := heard.sent (h.conn.receiver.curIndex - 1)
        (.inl (show _ < h.conn.receiver.curIndex by omega))
      omega

end Host

namespace Network

open Host

/-! ## Both directions -/

/-- Each host has heard the other. -/
def Heard (n : Network) : Prop := ∀ side, Host.Heard (n side.peer) (n side)

theorem heard_start (cfg : Side → TCPConfig) : (start cfg).Heard := fun _ => heard_new _ _

/-- One step of the network. -/
theorem Heard.step {n n' : Network} {op : Op} (heard : n.Heard) (faithful : n.Faithful)
    (bounded : n.Bounded) (h : n.step op = .ok n') : n'.Heard := by
  rcases step_cases h with rfl | ⟨side, rfl⟩ | ⟨side, act, h', hact, rfl, sent, -⟩
  · exact heard
  · have other := heard side.peer
    rw [Side.peer_peer] at other
    exact Side.forall_update (R := Host.Heard) (heard side).transmit other.peer_transmit
  · have other := heard side.peer
    obtain ⟨outgoing, incoming⟩ := faithful side
    rw [Side.peer_peer] at other
    have fed := faithful.fed bounded hact fun seg hop => (sent seg hop).imp fun _ => And.right
    exact Side.forall_update (R := Host.Heard)
      ((heard side).act incoming outgoing (bounded side) fed)
      (other.peer outgoing (bounded side) fed)

/-- A FIN is the end of what the owner has written. -/
theorem settled_step {n n' : Network} {op : Op} (settled : ∀ side, (n side).Settled)
    (faithful : n.Faithful) (bounded : n.Bounded) (noWrite : n.NoWriteAfterEnd op)
    (h : n.step op = .ok n') (side : Side) : (n' side).Settled := by
  have updated : ∀ {side' : Side} {h' : Host}, h'.Settled →
      (Function.update n side' h' side).Settled := fun here =>
    (Function.forall_update_iff n fun _ h => h.Settled).mpr ⟨here, fun side _ => settled side⟩ side
  rcases step_cases h with rfl | ⟨side', rfl⟩ | ⟨side', act, h', hact, rfl, -, written⟩
  · exact settled side
  · exact updated (settled side').transmit
  · have outgoing := (faithful side').1
    have silent := noWrite.act written
    exact updated ((settled side').act outgoing (outgoing.nextSeqno_lt (bounded side'))
      (outgoing.accepted_of_ended silent) hact)

/-- **No acknowledgment runs ahead.**  Whatever the network loses, repeats and reorders: who
acknowledges something knows the initial sequence number and points at most to the end of what the
peer has sent; and a sender whose SYN is acknowledged has a peer that knows its initial sequence
number. -/
theorem acknowledges_sent {cfg : Side → TCPConfig}
    (hrecv : ∀ side, (cfg side).recvCapacity < 2 ^ 64)
    (hsend : ∀ side, (cfg side).sendCapacity < 2 ^ 64) {n : Network}
    (run : GuardedRun step NoWriteAfterEnd (start cfg) n) (bounded : n.Bounded) (side : Side) :
    (∀ seg ∈ (n side).emitted, seg.header.ack = true → Knows (n side.peer) (n side) ∧
      ∃ q ≤ (n side.peer).conn.sender.nextSeqno,
        seg.header.ackno = wrap q (n side.peer).conn.sender.isn) ∧
    ((n side.peer).conn.sender.unaSeqno ≠ 0 → Knows (n side.peer) (n side)) := by
  obtain ⟨faithful, settled, heard⟩ : n.Faithful ∧ (∀ side, (n side).Settled) ∧ n.Heard := by
    refine run.invariant
      (fun n => n.Bounded → n.Faithful ∧ (∀ side, (n side).Settled) ∧ n.Heard)
      (fun _ => ⟨faithful_start hrecv hsend, fun _ => settled_new _, heard_start cfg⟩)
      (fun n op n' ih noWrite h bounded' => ?_) bounded
    have bounded : n.Bounded := bounded'.before h
    obtain ⟨faithful, settled, heard⟩ := ih bounded
    exact ⟨faithful.step bounded h, settled_step settled faithful bounded noWrite h,
      heard.step faithful bounded h⟩
  refine ⟨fun seg hseg ack => ?_, (heard side).una⟩
  obtain ⟨known, q, hq, hackno⟩ := (heard side).acks seg hseg ack
  exact ⟨known, q, hq.trans ((heard side).ackPosition_le (faithful side).2 (settled side.peer) known),
    hackno⟩

theorem acknowledges_sent_reordered :
    ∃ n, execute step (start nearWrap) (reordered ++ [.transmit .b, .transmit .b, .deliver .a 1])
        = .ok n ∧ (n .a).conn.sender.unaSeqno = 1 ∧ Knows (n .a) (n .b) := by
  obtain ⟨n, done, bounded, acked⟩ : ∃ n, execute step (start nearWrap)
      (reordered ++ [.transmit .b, .transmit .b, .deliver .a 1]) = .ok n ∧ n.Bounded ∧
        (n .a).conn.sender.unaSeqno = 1 := EndsIn.exists_ok (by decide +kernel)
  have admitted : Admitted step NoWriteAfterEnd (start nearWrap)
      (reordered ++ [.transmit .b, .transmit .b, .deliver .a 1]) := by decide +kernel
  have known := (acknowledges_sent (by decide) (by decide) (GuardedRun.of_execute admitted done)
    bounded .b).2
  refine ⟨n, done, acked, known ?_⟩
  rw [show Side.b.peer = .a from rfl, acked]
  exact one_ne_zero

end Network

end Sponge
