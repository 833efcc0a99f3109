import Sponge.Network.Acknowledgment
import Sponge.TCPSender.Window

/-!
# Flow control

A receiver stores a payload that starts past its window, and throws when it does not fit
later. What keeps a peer from sending such a payload is the window it was told, and that is
where the code is delicate: `ack_received` takes the window of **every** acknowledgment
over, also of one that it then finds not acceptable.

* `never_fails` — as long as no acknowledgment is delivered that points below `_una_seqno`, no
  operation on either connection ever throws, whatever the owners call and whatever else the
  network loses, repeats and reorders.
* `stale_window_throws` — an acknowledgment that was overtaken opens a window that is closed again,
  the sender fills it, and the receiver throws.

The right edge of the window, `_cur_index + remaining_capacity()`, never moves back.  So it
is enough that `_una_seqno` plus the window is at most one past it (`Granted.window`), and
that every acknowledgment in flight would keep it so if `_una_seqno` were where it points
(`Granted.acks`).  A stale acknowledgment is one for which `_una_seqno` is already past that
point.

### One byte too many

A sender probes a closed window with one byte, so what it has sent may end one position past
what the receiver has room for.  The bounds therefore have an offset: `sent` allows `edge +
2`, one for the SYN and one for the probe, while `window` allows `edge + 1` only.  A payload
that starts at the edge is cut there and does no harm; it is one that starts past the edge
that is stored.

### After the FIN

Once the transmission has ended nothing new is sent, and the window no longer matters.  The
disjunct with `isTransmissionEnded` in `window` and `acks` is not a convenience: the
acknowledgment of a FIN counts one more than the stream has bytes, and measured from there
the window would reach past the edge.
-/

namespace Sponge

open Runs TCPSender

/-! ## What an operation spends of the window -/

namespace TCPSender

/-- `fill_window` sends up to the window past `_una_seqno`, which counts as one if it is zero. -/
theorem Inv.fillWindow_nextSeqno_le {W : List UInt8} {s : TCPSender} (inv : Inv W s)
    (alone : s.SynAlone) :
    s.fillWindow.nextSeqno ≤ max s.nextSeqno (s.unaSeqno + max s.windowSize 1) := by
  obtain ⟨new, filled, fits, -⟩ := inv.toSynced.fillWindow alone
  obtain ⟨first, -, flight, una⟩ := inv.inFlight
  have hfirst := una.le
  have balance := filled.flight
  rw [actualWindowSize_eq] at fits
  omega

/-- Acceptable or not, an acknowledgment sets the window. -/
theorem ackReceived_windowSize (s : TCPSender) (ackno : WrappingInt32) (windowSize : UInt16) :
    (s.ackReceived ackno windowSize).windowSize = windowSize.toNat := by
  unfold ackReceived
  simp only
  split <;> rfl

end TCPSender

namespace TCPConnection

/-- **What an operation does with the two windows**: how far the sender goes, where its window
comes from, and which window is offered with the acknowledgments that are put on the queue.  A
window of zero counts as one, for the probe. -/
structure Spends (op : Op) (c c' : TCPConnection) : Prop where
  queued : ∀ seg ∈ c'.sender.segmentsOut, seg.header.ack = false
  sent : c'.sender.nextSeqno ≤
    max c.sender.nextSeqno (c'.sender.unaSeqno + max c'.sender.windowSize 1)
  window : (c'.sender.windowSize = c.sender.windowSize ∧
      c'.sender.unaSeqno = c.sender.unaSeqno) ∨
    ∃ seg, op = .segment seg ∧ seg.header.ack = true ∧
      c'.sender.windowSize = seg.header.win.toNat
  offered : ∃ extra, c'.segmentsOut = c.segmentsOut ++ extra ∧
    ∀ seg ∈ extra, seg.header.ack = true → seg.header.win.toNat ≤ c'.receiver.windowSize

section

variable {W : List UInt8} {op : Op} {c c' : TCPConnection}

/-- An operation that leaves the numbers of the sender alone and emits nothing. -/
theorem spends_of_eq (queued : ∀ seg ∈ c'.sender.segmentsOut, seg.header.ack = false)
    (next : c'.sender.nextSeqno = c.sender.nextSeqno)
    (window : c'.sender.windowSize = c.sender.windowSize)
    (una : c'.sender.unaSeqno = c.sender.unaSeqno)
    (same : c'.segmentsOut = c.segmentsOut) : Spends op c c' :=
  ⟨queued, next.le.trans (le_max_left _ _), Or.inl ⟨window, una⟩, [],
    by rw [same, List.append_nil], by simp⟩

/-- The window that is offered is at most the receiver's own. -/
theorem fillIn_win (c : TCPConnection) (seg : TCPSegment) :
    (c.fillIn seg).header.win.toNat ≤ c.receiver.windowSize := by
  have hwin : (c.fillIn seg).header.win = UInt16.ofNat (min c.receiver.windowSize 65535) := rfl
  rw [hwin, UInt16.toNat_ofNat']
  omega

/-- Emptying the queue offers the receiver's window. -/
theorem Spends.sendAll (h : Spends op c c') : Spends op c c'.sendAllOutboundingSegments := by
  obtain ⟨extra, hextra, hoffered⟩ := h.offered
  refine ⟨by simp [sendAllOutboundingSegments], h.sent, h.window,
    extra ++ c'.sender.segmentsOut.map c'.fillIn, ?_, fun seg hseg hack => ?_⟩
  · rw [← List.append_assoc, ← hextra]
    rfl
  · rcases List.mem_append.mp hseg with hold | hnew
    · exact hoffered seg hold hack
    · obtain ⟨queued, -, rfl⟩ := List.mem_map.mp hnew
      exact c'.fillIn_win queued

theorem queued_sendEmpty {s : TCPSender} (h : ∀ seg ∈ s.segmentsOut, seg.header.ack = false) :
    ∀ seg ∈ s.sendEmptySegment.segmentsOut, seg.header.ack = false := by
  intro seg hseg
  rcases List.mem_append.mp hseg with hold | hnew
  · exact h seg hold
  · rw [List.mem_singleton.mp hnew]

theorem Spends.sendEmpty (h : Spends op c c') :
    Spends op c { c' with sender := c'.sender.sendEmptySegment } :=
  ⟨queued_sendEmpty h.queued, h.sent, h.window, h.offered⟩

theorem Spends.setErrors (h : Spends op c c') : Spends op c c'.setErrors :=
  ⟨h.queued, h.sent, h.window, h.offered⟩

/-- A RST takes no acknowledgment along. -/
theorem Spends.sendRst (h : Spends op c c') : Spends op c c'.sendRstSegmenet := by
  have empty := h.sendEmpty
  obtain ⟨extra, hextra, hoffered⟩ := empty.offered
  unfold sendRstSegmenet
  simp only
  split
  · next seg rest hqueue =>
    have queued : ∀ x ∈ seg :: rest, x.header.ack = false := hqueue ▸ empty.queued
    obtain ⟨first, others⟩ := List.forall_mem_cons.mp queued
    refine ⟨others, empty.sent, empty.window,
      extra ++ [{ seg with header := { seg.header with rst := true } }], ?_, fun x hx hack => ?_⟩
    · rw [← List.append_assoc, ← hextra]
    · rcases List.mem_append.mp hx with hold | hnew
      · exact hoffered x hold hack
      · rw [List.mem_singleton.mp hnew, show _ = seg.header.ack from rfl, first] at hack
        cases hack
  · exact empty

/-- Filling the window, after the sender has moved to `s`. -/
theorem spends_fill {s : TCPSender} (sound : Sound W s) (alone : s.SynAlone)
    (next : s.nextSeqno = c.sender.nextSeqno)
    (window : (s.windowSize = c.sender.windowSize ∧ s.unaSeqno = c.sender.unaSeqno) ∨
      ∃ seg, op = .segment seg ∧ seg.header.ack = true ∧ s.windowSize = seg.header.win.toNat)
    (hsender : c'.sender = s.fillWindow) (same : c'.segmentsOut = c.segmentsOut) :
    Spends op c c' := by
  have sound' := (sound.fillWindow alone).1
  have hwindow : s.fillWindow.windowSize = s.windowSize := by rw [s.fillWindow_queued.frame]
  have huna : s.fillWindow.unaSeqno = s.unaSeqno := by rw [s.fillWindow_queued.frame]
  refine ⟨?_, ?_, ?_, [], by rw [same, List.append_nil], by simp⟩
  · rw [hsender]
    exact fun seg hseg => (sound'.queued seg hseg).2
  · rw [hsender, huna, hwindow, ← next]
    exact sound.inv.fillWindow_nextSeqno_le alone
  · rw [hsender, huna, hwindow]
    exact window

/-- An answer takes the window of the segment over, if it acknowledges. -/
theorem Outbound.spends_respond (h : Outbound W c) (hnext : c.sender.nextSeqno < 2 ^ 64)
    (seg : TCPSegment) : Spends (.segment seg) c (c.respond seg) := by
  have filled : Spends (.segment seg) c (c.refill seg) := by
    refine spends_fill (h.acknowledged hnext seg).1 (h.synAlone_acknowledge seg) ?_ ?_ rfl rfl
    · rw [(acknowledge_effect c.sender seg).2]
    · unfold acknowledge
      split
      · next ack => exact Or.inr ⟨seg, rfl, ack, c.sender.ackReceived_windowSize _ _⟩
      · exact Or.inl ⟨rfl, rfl⟩
  exact respond_rule filled (fun _ queued => queued.sendEmpty) fun _ sent => sent.sendAll

/-- **What any operation does with the two windows.**  Whatever the operation, it ends in
`fill_window`, in a retransmission or in nothing, and an acknowledgment that it queues is stamped
with the window the receiver has then. -/
theorem Outbound.spends (h : Outbound W c) (hnext : c.sender.nextSeqno < 2 ^ 64)
    (stepped : c.step op = .ok c') : Spends op c c' := by
  have queued : ∀ seg ∈ c.sender.segmentsOut, seg.header.ack = false := fun seg hseg =>
    (h.sound.queued seg hseg).2
  cases op with
  | connect =>
      obtain rfl := Except.ok.inj stepped
      exact Spends.sendAll (spends_fill h.sound (h.synAlone _) rfl (Or.inl ⟨rfl, rfl⟩) rfl rfl)
  | write data =>
      obtain rfl := Except.ok.inj stepped
      exact Spends.sendAll
        (spends_fill (h.sound.write data) (h.synAlone _) rfl (Or.inl ⟨rfl, rfl⟩) rfl rfl)
  | endInputStream =>
      obtain rfl := Except.ok.inj stepped
      have filled : Spends .endInputStream c { c with
          sender := { c.sender with stream := c.sender.stream.endInput }.fillWindow } :=
        spends_fill h.sound.endInput (h.synAlone _) rfl (Or.inl ⟨rfl, rfl⟩) rfl rfl
      unfold TCPConnection.endInputStream
      simp only
      split
      · exact filled
      · split
        · exact filled.sendAll
        · exact filled
  | tick ms =>
      obtain rfl := Except.ok.inj stepped
      obtain ⟨again, -, -, frame⟩ := c.sender.tick_effect ms
      -- a retransmission was within the window when it was first sent
      have ticked : Spends (.tick ms) c { c with
          timeSinceLastSegReceived := add64 c.timeSinceLastSegReceived ms
          sender := c.sender.tick ms } := by
        refine spends_of_eq (fun seg hseg => ((h.sound.tick ms).1.queued seg hseg).2) ?_ ?_ ?_ rfl
        all_goals simp only; rw [frame]
      unfold TCPConnection.tick
      simp only
      split
      · exact ticked.sendRst.setErrors
      · exact ticked.sendAll
  | read len =>
      obtain rfl := Except.ok.inj stepped
      exact spends_of_eq queued rfl rfl rfl rfl
  | segment seg =>
      have arrived : Spends (.segment seg) c { c with timeSinceLastSegReceived := 0 } :=
        spends_of_eq queued rfl rfl rfl rfl
      rcases segmentReceived_cases stepped with rfl | rfl | rfl | ⟨receiver, -, -, rfl⟩
      · exact arrived.setErrors
      · exact arrived.sendEmpty.sendAll
      · exact arrived
      · have outbound : Outbound W
            { c with timeSinceLastSegReceived := 0, receiver := receiver } := ⟨h.sound, h.unsent⟩
        obtain ⟨queued', sent, window, offered⟩ := outbound.spends_respond hnext seg
        exact ⟨queued', sent, window, offered⟩

end

end TCPConnection

namespace Host

variable {h h' p p' : Host} {op : TCPConnection.Op} {seg : TCPSegment}

/-! ## One direction -/

/-- The right edge of the receive window. -/
def edge (h : Host) : ℕ := h.conn.receiver.reassembler.edge

/-- The edge, in the words of the receiver. -/
theorem edge_eq (inv : h.conn.receiver.Inv) :
    h.edge = h.conn.receiver.curIndex + h.conn.receiver.windowSize := by
  rw [inv.windowSize_eq]
  rfl

/-- What the sender `p` may send, given what the receiver `h` has room for.  Everything is
measured against the edge, the first index that `h` cannot take: it never moves back, whatever is
read or received, and so a promise made once stays good.  The bounds no longer matter once the FIN
is sent, since nothing follows it. -/
structure Granted (p h : Host) : Prop where
  contained : h.conn.receiver.Contained
  known : h.conn.receiver.streamOut.inputEnded = true ∨ h.conn.receiver.reassembler.eof = true →
    p.conn.sender.isTransmissionEnded = true
  una_le : p.conn.sender.unaSeqno ≤ h.conn.receiver.ackPosition
  /-- One byte past the window may be out: the probe of a window that is closed. -/
  sent : p.conn.sender.nextSeqno ≤ h.edge + 2
  window : p.conn.sender.isTransmissionEnded = true ∨
    p.conn.sender.unaSeqno + p.conn.sender.windowSize ≤ h.edge + 1
  acks : ∀ seg ∈ h.emitted, seg.header.ack = true →
    ∃ q ≤ h.conn.receiver.ackPosition, seg.header.ackno = wrap q p.conn.sender.isn ∧
      (p.conn.sender.isTransmissionEnded = true ∨ q + seg.header.win.toNat ≤ h.edge + 1)

/-- Nothing has been offered and nothing sent. -/
theorem granted_new {cfg cfg' : TCPConfig} (hcap : cfg'.recvCapacity < 2 ^ 64) :
    Granted (new cfg) (new cfg') where
  contained := TCPReceiver.contained_new hcap
  known := by
    simp [new, TCPConnection.new, TCPReceiver.new, TCPReceiver.streamOut, StreamReassembler.new,
      ByteStream.new, ByteStream.inputEnded]
  una_le := Nat.zero_le _
  sent := Nat.zero_le _
  window := Or.inr (Nat.le_add_left _ _)
  acks := by simp [emitted, new, TCPConnection.new]

/-- The edge of the window never moves back. -/
theorem Reception.edge_le (reception : Reception p h op h') (inv : h.conn.receiver.Inv) :
    h.edge ≤ h'.edge := by
  unfold edge
  cases reception with
  | unchanged _ same => rw [same]
  | error _ reassembler => rw [reassembler]; exact le_rfl
  | read len _ reassembler =>
      rw [reassembler]
      exact inv.reassembler.edge_popOutput len
  | push seg _ _ _ _ _ range hne pushed =>
      obtain ⟨hcur, hlen⟩ := range.bounds hne
      exact (inv.reassembler.edge_push hcur hlen pushed).ge

/-- The end of the stream is known only from the FIN. -/
theorem Reception.known (reception : Reception p h op h') (inv : h.conn.receiver.Inv)
    (known : h.conn.receiver.streamOut.inputEnded = true ∨
      h.conn.receiver.reassembler.eof = true → p.conn.sender.isTransmissionEnded = true) :
    h'.conn.receiver.streamOut.inputEnded = true ∨ h'.conn.receiver.reassembler.eof = true →
      p.conn.sender.isTransmissionEnded = true := by
  unfold TCPReceiver.streamOut
  cases reception with
  | unchanged _ same =>
      rw [same]
      exact known
  | error _ reassembler =>
      rw [reassembler]
      exact known
  | read len _ reassembler =>
      rw [reassembler]
      exact known
  | push seg _ _ _ _ arrives range hne pushed =>
      obtain ⟨hcur, hlen⟩ := range.bounds hne
      have announced : h.conn.receiver.streamOut.inputEnded = true ∨
          h.conn.receiver.reassembler.eof = true ∨ seg.header.fin = true →
          p.conn.sender.isTransmissionEnded = true := by
        rintro (ended | eof | fin)
        · exact known (Or.inl ended)
        · exact known (Or.inr eof)
        · exact (arrives.fin fin).1
      rintro (ended | eof)
      · exact announced (StreamReassembler.pushSubstring_ended pushed ended)
      · exact announced (Or.inr (inv.reassembler.eof_push hcur hlen pushed eof))

/-- **No payload starts past the window.**  What is sent ends at most one byte past the edge. -/
theorem Granted.startsInWindow (granted : Granted p h) (inc : Incoming p h) (g : p.Outgoing)
    (small : p.accepted.length < 2 ^ 31 - 2) (hseg : seg ∈ p.emitted) :
    h.conn.receiver.InRange seg ∧ h.conn.receiver.StartsInWindow seg := by
  have hnext := g.nextSeqno_le
  have hcur : h.conn.receiver.curIndex ≤ p.accepted.length := inc.faithful.curIndex_le
  have genuine := g.genuine seg hseg
  have arrives : Arrives p.accepted p.conn.sender h.conn.receiver seg :=
    genuine.arrives (by omega) (by omega)
  refine ⟨⟨by omega, arrives.wellTyped⟩, ?_⟩
  unfold TCPReceiver.StartsInWindow
  split
  · trivial
  · next isn hisn =>
    have hpeer : isn = p.conn.sender.isn := by
      unfold TCPReceiver.isnAfter at hisn
      split at hisn
      · next syn => rw [← Option.some.inj hisn, arrives.syn syn]
      · exact inc.isn isn hisn
    by_cases hpayload : seg.payload = []
    · exact Or.inl hpayload
    · have hpos := List.length_pos_iff.mpr hpayload
      have hlen := seg.length_payload_le
      rcases genuine with hempty | ⟨a, car⟩
      · omega
      · have hedge := edge_eq granted.contained.inv
        have hsent := granted.sent
        have hstop := car.stop_le
        refine Or.inr (Or.inr (Or.inr ?_))
        rw [hpeer, car.streamIndex_eq (by omega) (by omega)]
        omega

/-- **A new acknowledgment is the receiver's own**, and so is the window that comes with it. -/
theorem Fed.emitted_new (fed : Fed p h op h') (inc : Incoming p h) (g : h.Outgoing)
    (small : h.accepted.length < 2 ^ 31 - 2) :
    ∃ extra, h'.emitted = h.emitted ++ extra ∧ ∀ seg ∈ extra, seg.header.ack = true →
      seg.header.ackno = wrap h'.conn.receiver.ackPosition p.conn.sender.isn ∧
        seg.header.win.toNat ≤ h'.conn.receiver.windowSize := by
  have hnext := g.nextSeqno_lt small
  obtain ⟨-, -, isn⟩ := fed.reception inc
  obtain ⟨hstep, -, -, hwire, -⟩ := act_cases fed.acted
  obtain ⟨extra, hextra, hoffered⟩ := (g.outbound.spends hnext hstep).offered
  obtain ⟨extra', hextra', hgenuine⟩ := (g.effect hnext fed.acted).emitted
  obtain rfl : extra' = extra := List.append_cancel_left (hextra'.symm.trans hextra)
  refine ⟨extra', by rw [emitted, hwire, hextra, ← List.append_assoc, emitted],
    fun seg hseg ack => ⟨?_, hoffered seg hseg ack⟩⟩
  have hackno := (hgenuine seg hseg).2 ack
  unfold TCPReceiver.ackno at hackno
  cases hisn : h'.conn.receiver.isn with
  | none => simp [hisn] at hackno
  | some isn' =>
      simp only [hisn, Option.some.injEq] at hackno
      rw [← hackno, isn isn' hisn]

/-- **The receiving host acts.**  What it acknowledges from now on offers no more than it has: the
position and the window that go out together do not add up to more than the edge. -/
theorem Granted.act (granted : Granted p h) (inc : Incoming p h) (g : h.Outgoing)
    (small : h.accepted.length < 2 ^ 31 - 2) (fed : Fed p h op h') : Granted p h' := by
  obtain ⟨reception, inv', -⟩ := fed.reception inc
  obtain ⟨extra, hextra, hnew⟩ := fed.emitted_new inc g small
  have hedge := reception.edge_le inc.receiver
  have hack := reception.ackPosition_le
  have known := reception.known inc.receiver granted.known
  refine ⟨?_, known, granted.una_le.trans hack, granted.sent.trans (by omega),
    granted.window.imp_right fun hwindow => by omega, fun seg hseg ack => ?_⟩
  · have bounds : ∀ seg, op = .segment seg →
        h.conn.receiver.InRange seg ∧ h.conn.receiver.StartsInWindow seg := fun seg hop =>
      granted.startsInWindow inc fed.peer fed.small (fed.sent seg hop)
    refine TCPConnection.contained_step granted.contained ?_ ?_ (act_cases fed.acted).1
    · cases op with
      | segment seg => exact (bounds seg rfl).1
      | _ => trivial
    · cases op with
      | segment seg => exact fun _ => (bounds seg rfl).2
      | _ => trivial
  · rw [hextra] at hseg
    rcases List.mem_append.mp hseg with hold | hseg
    · obtain ⟨q, hq, hackno, hwin⟩ := granted.acks seg hold ack
      exact ⟨q, hq.trans hack, hackno, hwin.imp_right fun hwin => by omega⟩
    · obtain ⟨hackno, hwin⟩ := hnew seg hseg ack
      refine ⟨_, le_rfl, hackno, ?_⟩
      by_cases ended : h'.conn.receiver.streamOut.inputEnded = true
      · exact Or.inl (known (Or.inl ended))
      · refine Or.inr ?_
        have hroom := edge_eq inv'
        rw [TCPReceiver.ackPosition, if_neg ended]
        omega

/-- The acknowledgment of a segment does not point below `_una_seqno`. -/
def FreshAck (h : Host) (seg : TCPSegment) : Prop :=
  seg.header.ack = true →
    h.conn.sender.unaSeqno ≤ unwrap seg.header.ackno h.conn.sender.isn h.conn.sender.nextSeqno

instance (h : Host) (seg : TCPSegment) : Decidable (h.FreshAck seg) :=
  inferInstanceAs (Decidable (_ → _))

/-- An acknowledgment unwraps to the position it was made for. -/
theorem Granted.points (granted : Granted p h) (inc : Incoming p h) (g : p.Outgoing)
    (small : p.accepted.length < 2 ^ 31 - 2) {seg : TCPSegment} (hseg : seg ∈ h.emitted)
    (ack : seg.header.ack = true) :
    ∃ q ≤ h.conn.receiver.ackPosition,
      unwrap seg.header.ackno p.conn.sender.isn p.conn.sender.nextSeqno = q ∧
      (p.conn.sender.isTransmissionEnded = true ∨ q + seg.header.win.toNat ≤ h.edge + 1) := by
  have hnext := g.nextSeqno_le
  have hposition := inc.ackPosition_le
  obtain ⟨q, hq, hackno, hwin⟩ := granted.acks seg hseg ack
  refine ⟨q, hq, ?_, hwin⟩
  rw [hackno, unwrap_wrap _ (by omega) (by omega) (by omega) (by omega)]

/-- What is acknowledged has been received. -/
theorem Granted.una_peer (granted : Granted p h) (inc : Incoming p h) (g : p.Outgoing)
    (small : p.accepted.length < 2 ^ 31 - 2) (fed : Fed h p op p') :
    p'.conn.sender.unaSeqno ≤ h.conn.receiver.ackPosition := by
  rcases (g.effect (g.nextSeqno_lt small) fed.acted).una with hsame | ⟨ackno, hack, huna⟩
  · rw [hsame]
    exact granted.una_le
  · obtain ⟨seg, hop, ack, rfl⟩ := ackedBy_eq_some hack
    obtain ⟨q, hq, hpoints, -⟩ := granted.points inc g small (fed.sent seg hop) ack
    rw [huna, hpoints]
    exact hq

/-- The window it is told is measured from where the acknowledgment points, and `_una_seqno` is not
past that. -/
theorem Granted.window_peer (granted : Granted p h) (inc : Incoming p h) (g : p.Outgoing)
    (small : p.accepted.length < 2 ^ 31 - 2) (fresh : ∀ seg, op = .segment seg → p.FreshAck seg)
    (fed : Fed h p op p') :
    p.conn.sender.isTransmissionEnded = true ∨
      p'.conn.sender.unaSeqno + p'.conn.sender.windowSize ≤ h.edge + 1 := by
  have effect := g.effect (g.nextSeqno_lt small) fed.acted
  have spends := g.outbound.spends (g.nextSeqno_lt small) (act_cases fed.acted).1
  rcases spends.window with ⟨hwindow, huna⟩ | ⟨seg, hop, ack, hwindow⟩
  · rw [hwindow, huna]
    exact granted.window
  · obtain ⟨q, -, hpoints, hwin⟩ := granted.points inc g small (fed.sent seg hop) ack
    refine hwin.imp_right fun hwin => ?_
    have hfresh := fresh seg hop ack
    rw [hpoints] at hfresh
    rcases effect.una with hsame | ⟨ackno, hack, huna⟩
    · omega
    · obtain ⟨seg', hop', -, rfl⟩ := ackedBy_eq_some hack
      obtain rfl : seg' = seg := by simpa using hop'.symm.trans hop
      omega

/-- **The sending host acts.**  What it sends now is within the window it was told, or is the one
byte of a probe; and the window it was told is within the edge, because the acknowledgment that
brought it was not stale. -/
theorem Granted.peer (granted : Granted p h) (inc : Incoming p h) (g : p.Outgoing)
    (small : p.accepted.length < 2 ^ 31 - 2) (fresh : ∀ seg, op = .segment seg → p.FreshAck seg)
    (fed : Fed h p op p') : Granted p' h := by
  have effect := g.effect (g.nextSeqno_lt small) fed.acted
  have adv := effect.advanced
  have spends := g.outbound.spends (g.nextSeqno_lt small) (act_cases fed.acted).1
  have una_le := granted.una_peer inc g small fed
  have window := granted.window_peer inc g small fresh fed
  refine ⟨granted.contained, fun known => (adv.frozen (granted.known known)).1, una_le, ?_,
    window.imp_left fun ended => (adv.frozen ended).1, fun seg hseg ack => ?_⟩
  · by_cases ended : p.conn.sender.isTransmissionEnded = true
    · rw [(adv.frozen ended).2]
      exact granted.sent
    · -- the end is not known to the receiver, so the position is the one past the write index
      have running : h.conn.receiver.streamOut.inputEnded ≠ true := fun hended =>
        ended (granted.known (Or.inl hended))
      have hcur : h.conn.receiver.curIndex ≤ h.edge :=
        StreamReassembler.Inv.curIndex_le_edge _
      have hwindow := window.resolve_left ended
      have hsent := spends.sent
      have hbefore := granted.sent
      rw [TCPReceiver.ackPosition, if_neg running] at una_le
      omega
  · obtain ⟨q, hq, hackno, hwin⟩ := granted.acks seg hseg ack
    rw [adv.isn_eq]
    exact ⟨q, hq, hackno, hwin.imp_left fun ended => (adv.frozen ended).1⟩

/-- Transmitting offers nothing new. -/
theorem Granted.transmit (granted : Granted p h) : Granted p h.transmit := by
  obtain ⟨contained, known, una_le, sent, window, acks⟩ := granted
  unfold edge at *
  rw [← emitted_transmit] at acks
  rw [transmit_frame h] at acks ⊢
  exact ⟨contained, known, una_le, sent, window, acks⟩

theorem Granted.peer_transmit (granted : Granted p h) : Granted p.transmit h := by
  obtain ⟨contained, known, una_le, sent, window, acks⟩ := granted
  rw [transmit_frame p]
  exact ⟨contained, known, una_le, sent, window, acks⟩

end Host

namespace Network

open Host

/-! ## Runs without a stale acknowledgment -/

/-- No acknowledgment that is delivered points below `_una_seqno`. -/
def FreshAck (n : Network) : Op → Prop
  | .deliver side i => ∀ seg ∈ (n side.peer).wire[i]?, (n side).FreshAck seg
  | _ => True

instance decidableFreshAck (n : Network) : ∀ op, Decidable (n.FreshAck op)
  | .deliver side i => inferInstanceAs (Decidable (∀ seg ∈ (n side.peer).wire[i]?, _))
  | .connect _ | .write _ _ | .endInputStream _ | .tick _ _ | .read _ _ | .transmit _ =>
      inferInstanceAs (Decidable True)

/-- Neither host may send what the other has no room for. -/
def Granted (n : Network) : Prop := ∀ side, Host.Granted (n side.peer) (n side)

/-- At the start neither host may send anything but its SYN. -/
theorem granted_start {cfg : Side → TCPConfig}
    (hrecv : ∀ side, (cfg side).recvCapacity < 2 ^ 64) : (start cfg).Granted := fun side =>
  granted_new (hrecv side)

/-- A step without a stale acknowledgment keeps both hosts within what was granted. -/
theorem Granted.step {n n' : Network} {op : Op} (granted : n.Granted) (faithful : n.Faithful)
    (bounded : n.Bounded) (fresh : n.FreshAck op) (h : n.step op = .ok n') : n'.Granted := by
  rcases step_cases h with rfl | ⟨side, rfl⟩ | ⟨side, act, h', hact, rfl, sent, -⟩
  · exact granted
  · have other := granted side.peer
    rw [Side.peer_peer] at other
    exact Side.forall_update (R := Host.Granted) (granted side).transmit other.peer_transmit
  · have other := granted side.peer
    obtain ⟨outgoing, incoming⟩ := faithful side
    have incoming' := (faithful side.peer).2
    rw [Side.peer_peer] at other incoming'
    have fed := faithful.fed bounded hact fun seg hop => (sent seg hop).imp fun _ => And.right
    have fresh : ∀ seg, act = .segment seg → (n side).FreshAck seg := by
      intro seg hop
      obtain ⟨i, rfl, hi⟩ := sent seg hop
      exact fresh seg hi
    exact Side.forall_update (R := Host.Granted)
      ((granted side).act incoming outgoing (bounded side) fed)
      (other.peer incoming' outgoing (bounded side) fresh fed)

/-- **Nothing fails next**, be the acknowledgment that is delivered next stale or not.  A failure
takes a segment that was sent into a window that is not there, so a stale acknowledgment does its
harm later. -/
theorem Granted.succeeds {n : Network} (granted : n.Granted) (faithful : n.Faithful)
    (bounded : n.Bounded) (op : Op) : ∃ n', n.step op = .ok n' := by
  cases op with
  | deliver side i =>
      cases hseg : (n side.peer).wire[i]? with
      | none => exact ⟨n, by simp only [Network.step, hseg]⟩
      | some seg =>
          have hmem : seg ∈ (n side.peer).emitted :=
            List.mem_append_left _ (List.mem_of_getElem? hseg)
          have range := ((granted side).startsInWindow (faithful side).2 (faithful side.peer).1
            (bounded side.peer) hmem).1
          obtain ⟨c', hc'⟩ :=
            TCPConnection.segmentReceived_succeeds ((granted side).contained.succeeds range)
          have hstep : (n side).conn.step (.segment seg) = .ok c' := hc'
          simp only [Network.step, hseg, Network.act, Host.act, hstep]
          exact ⟨_, rfl⟩
  | _ => exact ⟨_, rfl⟩

theorem granted_of_run {cfg : Side → TCPConfig}
    (hrecv : ∀ side, (cfg side).recvCapacity < 2 ^ 64)
    (hsend : ∀ side, (cfg side).sendCapacity < 2 ^ 64) {n : Network}
    (run : GuardedRun step FreshAck (start cfg) n) (bounded : n.Bounded) :
    n.Faithful ∧ n.Granted := by
  refine run.invariant (fun n => n.Bounded → n.Faithful ∧ n.Granted)
    (fun _ => ⟨faithful_start hrecv hsend, granted_start hrecv⟩)
    (fun n op n' ih fresh h bounded' => ?_) bounded
  have bounded : n.Bounded := bounded'.before h
  obtain ⟨faithful, granted⟩ := ih bounded
  exact ⟨faithful.step bounded h, granted.step faithful bounded fresh h⟩

/-- **No operation ever fails**, as long as no stale acknowledgment arrives: after any calls of the
owners and any deliveries by a network that loses, repeats and reorders segments, everything that
may happen next succeeds on both connections. -/
theorem never_fails {cfg : Side → TCPConfig}
    (hrecv : ∀ side, (cfg side).recvCapacity < 2 ^ 64)
    (hsend : ∀ side, (cfg side).sendCapacity < 2 ^ 64) {n : Network}
    (run : GuardedRun step FreshAck (start cfg) n) (bounded : n.Bounded) (op : Op) :
    ∃ n', n.step op = .ok n' := by
  obtain ⟨faithful, granted⟩ := granted_of_run hrecv hsend run bounded
  exact granted.succeeds faithful bounded op

/-- A receiver with room for four bytes. -/
def fourBytes : Side → TCPConfig
  | .a => { fixedIsn := ⟨4294967290⟩ }
  | .b => { recvCapacity := 4, fixedIsn := ⟨77⟩ }

/-- The handshake, four bytes that fill the window, and their acknowledgment, which closes it.  A
fifth byte probes the window. -/
def windowClosed : List Op :=
  [.connect .a, .transmit .a, .deliver .b 0, .transmit .b, .deliver .a 0,
    .write .a [1, 2, 3, 4], .transmit .a, .transmit .a, .deliver .b 2,
    .transmit .b, .deliver .a 1, .write .a [5], .transmit .a]

theorem never_fails_windowClosed :
    ∃ n, execute step (start fourBytes) windowClosed = .ok n ∧
      (n .a).conn.sender.windowSize = 0 ∧ ∃ n', n.step (.deliver .a 0) = .ok n' := by
  obtain ⟨n, done, admitted, bounded, closed⟩ : ∃ n,
      execute step (start fourBytes) windowClosed = .ok n ∧
      Admitted step FreshAck (start fourBytes) windowClosed ∧ n.Bounded ∧
      (n .a).conn.sender.windowSize = 0 :=
    EndsIn.exists_ok (by decide +kernel)
  have hrecv : ∀ side, (fourBytes side).recvCapacity < 2 ^ 64 := by decide
  have hsend : ∀ side, (fourBytes side).sendCapacity < 2 ^ 64 := by decide
  have run := GuardedRun.of_execute admitted done
  exact ⟨n, done, closed, never_fails hrecv hsend run bounded _⟩

/-- The SYN of the handshake comes once more, with the acknowledgment and the window of then, and
two more bytes leave.  The last of them arrives first, when the window is open for one byte. -/
def overtaken : List Op :=
  windowClosed ++ [.deliver .a 0, .write .a [6], .write .a [7], .transmit .a, .transmit .a,
    .transmit .a, .read .b 1, .deliver .b 6, .deliver .b 3, .read .b 1]

/-- **A stale acknowledgment can crash the peer.**  It opens a window that is closed by now; what
is sent into it is stored past the edge, and does not fit once the byte in front of it arrives. -/
theorem stale_window_throws :
    ∃ n, GuardedRun step (fun _ _ => True) (start fourBytes) n ∧ n.Bounded ∧
      n.step (.deliver .b 5) = .error .shortWrite := by
  obtain ⟨n, done, bounded, fails⟩ : ∃ n, execute step (start fourBytes) overtaken = .ok n ∧
      n.Bounded ∧ FailsWith (n.step (.deliver .b 5)) .shortWrite :=
    EndsIn.exists_ok (by decide +kernel)
  exact ⟨n, GuardedRun.of_execute (admitted_of_forall (fun _ _ => trivial) _ _) done, bounded,
    fails.eq_error⟩

end Network

end Sponge
