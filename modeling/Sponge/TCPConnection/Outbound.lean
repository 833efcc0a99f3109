import Sponge.TCPConnection
import Sponge.TCPSender.Accounting

/-!
# The outbound half of a connection

What an endpoint puts on the network, and what its sender remembers of it.  A
segment is **genuine** if it occupies no sequence numbers, or carries the bytes of
the stream at its place, with the FIN only at the very end.  Genuine segments stay
genuine as the sender moves on (`Genuine.later`), so they may be delayed, repeated
and reordered at will.

Every operation of a connection is a few operations of its sender, with the queue
emptied at the end.  `Sound` is what holds of the sender between any two of them,
`Advanced` says in which direction it moves, and `Effect` is the outcome of a whole
operation, as the network sees it.

### What *genuine* leaves open

A genuine segment may be an old one: its bytes may be acknowledged, its window stale, its
acknowledgment overtaken.  It says nothing false about the stream, and that is all a peer
needs.  The FIN is different, for a segment with it claims that nothing follows; so a FIN
has to end where the sequence numbers end, and that stays true because a sender that has
sent it sends nothing new (`Advanced.frozen`).

### One structure for every operation

An operation of the connection differs from the next in what it does to the stream and the
window, and in whether it empties the queue.  `Effect` says what they have in common, and is
put together from a few steps: the sender moves (`effect_fill`, `effect_of_sender`), an
empty segment is added, the queue is emptied, a RST leaves.  The stream `W` is an index of
it, and `write` is the only operation that changes the index.

`Outbound.unsent` is the invariant that discharges the sender's condition that the SYN goes
alone: until it is sent, the window is still the initial one, and nothing has been written
that waits.
-/

namespace Sponge

open Layouts

namespace TCPSender

/-- The segment occupies the sequence numbers from `a` on and carries what the
stream of `s`, which has accepted `W`, has there. -/
structure Carried (W : List UInt8) (s : TCPSender) (a : ℕ) (seg : TCPSegment) : Prop where
  seqno : seg.header.seqno = wrap a s.isn
  syn_iff : seg.header.syn = true ↔ a = 0
  payload : seg.payload = [] ∨ (0 < a ∧ seg.payload <+: W.drop (a - 1))
  payload_le : seg.payload.length ≤ TCPConfig.maxPayloadSize
  stop_le : a + seg.lengthInSequenceSpace ≤ s.nextSeqno
  /-- The FIN is the last sequence number ever used. -/
  fin : seg.header.fin = true →
    s.isTransmissionEnded = true ∧ a + seg.lengthInSequenceSpace = s.nextSeqno

/-- The segment occupies no sequence numbers, or those of its bytes. -/
def Genuine (W : List UInt8) (s : TCPSender) (seg : TCPSegment) : Prop :=
  seg.lengthInSequenceSpace = 0 ∨ ∃ a, Carried W s a seg

/-- How a sender moves, up to having accepted `W`: it keeps its numbers, sends a FIN
only after all of `W` and nothing after it, and drops outstanding segments only below
`_una_seqno`. -/
structure Advanced (W : List UInt8) (s s' : TCPSender) : Prop where
  isn_eq : s'.isn = s.isn
  next_le : s.nextSeqno ≤ s'.nextSeqno
  frozen : s.isTransmissionEnded = true →
    s'.isTransmissionEnded = true ∧ s'.nextSeqno = s.nextSeqno
  completed : s.isTransmissionEnded = false → s'.isTransmissionEnded = true →
    s'.nextSeqno = W.length + 2
  una_le : s.unaSeqno ≤ s'.unaSeqno
  released : ∀ seg ∈ s.outstandingSegments, seg ∈ s'.outstandingSegments ∨
    ∃ a, At W s.isn a seg ∧ a + seg.lengthInSequenceSpace ≤ s'.unaSeqno

/-- A sender that does nothing. -/
theorem advanced_refl (W : List UInt8) (s : TCPSender) : Advanced W s s :=
  ⟨rfl, le_rfl, fun h => ⟨h, rfl⟩, by simp +contextual, le_rfl, fun _ => Or.inl⟩

/-- Two movements are one; what the first released stays released. -/
theorem Advanced.trans {W : List UInt8} {s s' s'' : TCPSender} (h : Advanced W s s')
    (h' : Advanced W s' s'') : Advanced W s s'' where
  isn_eq := h'.isn_eq.trans h.isn_eq
  next_le := h.next_le.trans h'.next_le
  frozen := by
    intro ended
    obtain ⟨ended', hnext⟩ := h.frozen ended
    obtain ⟨ended'', hnext'⟩ := h'.frozen ended'
    exact ⟨ended'', hnext'.trans hnext⟩
  completed := by
    intro running ended''
    cases ended' : s'.isTransmissionEnded with
    | false => exact h'.completed ended' ended''
    | true => rw [(h'.frozen ended').2, h.completed running ended']
  una_le := h.una_le.trans h'.una_le
  released := by
    intro seg hseg
    rcases h.released seg hseg with hseg | ⟨a, hat, hle⟩
    · rw [← h.isn_eq]
      exact h'.released seg hseg
    · exact Or.inr ⟨a, hat, hle.trans h'.una_le⟩

/-- An operation that leaves the numbers and the outstanding queue alone. -/
theorem advanced_of_eq {W : List UInt8} {s s' : TCPSender} (isn : s'.isn = s.isn)
    (next : s'.nextSeqno = s.nextSeqno)
    (ended : s'.isTransmissionEnded = s.isTransmissionEnded) (una : s'.unaSeqno = s.unaSeqno)
    (outstanding : s'.outstandingSegments = s.outstandingSegments) : Advanced W s s' :=
  ⟨isn, next.ge, fun h => ⟨ended.trans h, next⟩, by simp +contextual [ended], una.ge,
    fun _ hseg => Or.inl (outstanding ▸ hseg)⟩

/-- **Genuine segments stay genuine.**  What is accepted is only appended to, `_next_seqno` only
grows, and it does not grow past a FIN. -/
theorem Genuine.later {W V : List UInt8} {s s' : TCPSender} {seg : TCPSegment}
    (h : Genuine W s seg) (adv : Advanced V s s') : Genuine W s' seg := by
  refine h.imp_right fun ⟨a, hcar⟩ => ⟨a, ?_⟩
  refine ⟨?_, hcar.syn_iff, hcar.payload, hcar.payload_le, hcar.stop_le.trans adv.next_le, ?_⟩
  · rw [adv.isn_eq]
    exact hcar.seqno
  · intro hfin
    obtain ⟨ended, hstop⟩ := hcar.fin hfin
    obtain ⟨ended', hnext⟩ := adv.frozen ended
    exact ⟨ended', hstop.trans hnext.symm⟩

/-- More input does not make a segment less genuine. -/
theorem Genuine.grow {W : List UInt8} {s : TCPSender} {seg : TCPSegment}
    (h : Genuine W s seg) (data : List UInt8) : Genuine (W ++ data) s seg := by
  refine h.imp_right fun ⟨a, hcar⟩ => ⟨a, ?_⟩
  refine ⟨hcar.seqno, hcar.syn_iff, ?_, hcar.payload_le, hcar.stop_le, hcar.fin⟩
  refine hcar.payload.imp_right fun ⟨hpos, hpre⟩ => ⟨hpos, hpre.trans ?_⟩
  rw [List.drop_append]
  exact List.prefix_append _ _

/-- What makes a segment genuine is its sequence number, its SYN, its FIN and its
payload; the connection may fill in the rest. -/
theorem Genuine.congr {W : List UInt8} {s : TCPSender} {seg seg' : TCPSegment}
    (h : Genuine W s seg) (seqno : seg'.header.seqno = seg.header.seqno)
    (syn : seg'.header.syn = seg.header.syn) (fin : seg'.header.fin = seg.header.fin)
    (payload : seg'.payload = seg.payload) : Genuine W s seg' := by
  have hlen : seg'.lengthInSequenceSpace = seg.lengthInSequenceSpace := by
    unfold TCPSegment.lengthInSequenceSpace
    rw [syn, fin, payload]
  unfold Genuine at h ⊢
  rw [hlen]
  refine h.imp_right fun ⟨a, hcar⟩ => ⟨a, ?_⟩
  refine ⟨seqno ▸ hcar.seqno, syn ▸ hcar.syn_iff, payload ▸ hcar.payload,
    payload ▸ hcar.payload_le, hlen ▸ hcar.stop_le, ?_⟩
  rw [hlen, fin]
  exact hcar.fin

/-- What holds of the sender of a connection between any two of its operations.  The
acknowledgment of a segment is filled in when it leaves the connection, and not before; so none
that is still in the sender has one. -/
structure Sound (W : List UInt8) (s : TCPSender) : Prop where
  inv : Inv W s
  outstanding : ∀ seg ∈ s.outstandingSegments, Genuine W s seg ∧ seg.header.ack = false
  queued : ∀ seg ∈ s.segmentsOut, Genuine W s seg ∧ seg.header.ack = false

/-- A new sender has queued nothing. -/
theorem sound_new {capacity : ℕ} (h : capacity < 2 ^ 64) (retxTimeout : UInt16)
    (isn : WrappingInt32) : Sound [] (new capacity retxTimeout isn) where
  inv := inv_new h retxTimeout isn
  outstanding := by simp [new]
  queued := by simp [new]

/-! ## The operations of the sender -/

/-- The segments that fill the window are genuine: only the last one can carry the
FIN, and it ends where the sequence numbers end. -/
theorem Filled.genuine {W : List UInt8} {s s' : TCPSender} {new : List TCPSegment}
    (filled : Filled W s new s') {seg : TCPSegment} (hseg : seg ∈ new) :
    Genuine W s' seg ∧ seg.header.ack = false := by
  obtain ⟨before, after, rfl⟩ := List.append_of_mem hseg
  obtain ⟨a, -, hat, hafter⟩ := laidOut_append.mp filled.placed
  refine ⟨Or.inr ⟨a, ?_⟩, hat.noAck⟩
  refine ⟨filled.isn_eq ▸ hat.seqno, hat.syn_iff, hat.payload, hat.payload_le, hafter.le, ?_⟩
  intro hfin
  have hlast : after = [] := by
    by_contra hne
    obtain ⟨x, hx⟩ := List.exists_mem_of_ne_nil after hne
    have hpair := (List.pairwise_append.mp filled.finLast).2.1
    rw [(List.pairwise_cons.mp hpair).1 x hx] at hfin
    cases hfin
  subst hlast
  refine ⟨?_, hafter⟩
  rw [filled.ended, Bool.or_eq_true]
  exact Or.inr (List.any_eq_true.mpr ⟨seg, hseg, hfin⟩)

/-- Filling the window moves the sender forward. -/
theorem Filled.advanced {W : List UInt8} {s s' : TCPSender} {new : List TCPSegment}
    (filled : Filled W s new s') (buffers : Buffers W s'.stream) : Advanced W s s' where
  isn_eq := filled.isn_eq
  next_le := filled.placed.le
  frozen := by
    intro ended
    refine ⟨by rw [filled.ended, ended, Bool.true_or], ?_⟩
    have placed := filled.placed
    rw [filled.stopped ended] at placed
    exact Eq.symm placed
  completed := by
    intro running ended
    have hsent : s'.nextSeqno ≠ 0 := by
      intro unsent
      rw [(filled.positioned.unsent unsent).2] at ended
      cases ended
    have hfin : ∃ seg ∈ new, seg.header.fin = true := by
      rw [filled.ended, running, Bool.false_or, List.any_eq_true] at ended
      exact ended
    have hread : W.length ≤ s'.stream.bytesRead := by
      rw [← List.drop_eq_nil_iff, buffers.rest]
      exact (filled.finished hfin).2
    have := buffers.read_le
    have hnext := filled.positioned.sent hsent
    rw [if_pos ended] at hnext
    omega
  una_le := by rw [filled.frame]
  released := by
    intro seg hseg
    rw [filled.outstanding]
    exact Or.inl (List.mem_append_left _ hseg)

/-- Filling keeps the sender sound, and afterwards the SYN is sent. -/
theorem Sound.fillWindow {W : List UInt8} {s : TCPSender} (h : Sound W s)
    (alone : s.SynAlone) :
    Sound W s.fillWindow ∧ Advanced W s s.fillWindow ∧ s.fillWindow.nextSeqno ≠ 0 ∧
      s.fillWindow.unaSeqno = s.unaSeqno := by
  obtain ⟨new, filled, inv, sent⟩ := h.inv.fillWindow alone
  have adv := filled.advanced inv.buffers
  refine ⟨⟨inv, ?_, ?_⟩, adv, sent, by rw [filled.frame]⟩
  · intro seg hseg
    rw [filled.outstanding] at hseg
    rcases List.mem_append.mp hseg with hold | hnew
    · exact ⟨(h.outstanding seg hold).1.later adv, (h.outstanding seg hold).2⟩
    · exact filled.genuine hnew
  · intro seg hseg
    rw [filled.segmentsOut] at hseg
    rcases List.mem_append.mp hseg with hold | hnew
    · exact ⟨(h.queued seg hold).1.later adv, (h.queued seg hold).2⟩
    · exact filled.genuine hnew

/-- An operation that sends nothing new keeps the sender sound: what it queues was
queued or outstanding before, or is empty. -/
theorem Sound.move {W : List UInt8} {s s' : TCPSender} (h : Sound W s) (inv : Inv W s')
    (adv : Advanced W s s')
    (outstanding : ∀ seg ∈ s'.outstandingSegments, seg ∈ s.outstandingSegments)
    (queued : ∀ seg ∈ s'.segmentsOut, seg ∈ s.segmentsOut ∨ seg ∈ s.outstandingSegments ∨
      (seg.lengthInSequenceSpace = 0 ∧ seg.header.ack = false)) : Sound W s' := by
  refine ⟨inv, fun seg hseg => ?_, fun seg hseg => ?_⟩
  · obtain ⟨genuine, noAck⟩ := h.outstanding seg (outstanding seg hseg)
    exact ⟨genuine.later adv, noAck⟩
  · rcases queued seg hseg with hold | hout | ⟨hempty, noAck⟩
    · exact ⟨(h.queued seg hold).1.later adv, (h.queued seg hold).2⟩
    · exact ⟨(h.outstanding seg hout).1.later adv, (h.outstanding seg hout).2⟩
    · exact ⟨Or.inl hempty, noAck⟩

/-- An acknowledgment keeps it sound and moves `_una_seqno` to where it points, or not at all. -/
theorem Sound.ackReceived {W : List UInt8} {s : TCPSender} (h : Sound W s)
    (hnext : s.nextSeqno < 2 ^ 64) (ackno : WrappingInt32) (windowSize : UInt16) :
    Sound W (s.ackReceived ackno windowSize) ∧ Advanced W s (s.ackReceived ackno windowSize) ∧
      ((s.ackReceived ackno windowSize).unaSeqno = s.unaSeqno ∨
        (s.ackReceived ackno windowSize).unaSeqno = unwrap ackno s.isn s.nextSeqno) := by
  obtain ⟨inv, hcases⟩ := h.inv.ackReceived hnext ackno windowSize
  obtain ⟨suffix, frame⟩ := s.ackReceived_effect ackno windowSize
  have hqueue : (s.ackReceived ackno windowSize).segmentsOut = s.segmentsOut := by rw [frame]
  have adv : Advanced W s (s.ackReceived ackno windowSize) := by
    rcases hcases with heq | ⟨popped, released⟩
    · rw [heq]
      exact advanced_of_eq rfl rfl rfl rfl rfl
    · refine ⟨by rw [frame], by rw [frame], fun ended => ?_, fun running => ?_, ?_,
        fun seg hseg => ?_⟩
      · rw [frame]
        exact ⟨ended, rfl⟩
      · rw [frame]
        simp [running]
      · rw [released.una]
        exact released.advances.le
      · rw [released.outstanding] at hseg
        rcases List.mem_append.mp hseg with hpopped | hleft
        · obtain ⟨a, hat, hle⟩ := released.popped_at seg hpopped
          exact Or.inr ⟨a, hat, released.una ▸ hle⟩
        · exact Or.inl hleft
  refine ⟨h.move inv adv (fun seg hseg => suffix.subset hseg) fun seg hseg => ?_, adv, ?_⟩
  · rw [hqueue] at hseg
    exact Or.inl hseg
  · rcases hcases with heq | ⟨popped, released⟩
    · exact Or.inl (by rw [heq])
    · exact Or.inr released.una

/-- What is sent again is genuine still. -/
theorem Sound.tick {W : List UInt8} {s : TCPSender} (h : Sound W s) (ms : ℕ) :
    Sound W (s.tick ms) ∧ Advanced W s (s.tick ms) ∧ (s.tick ms).unaSeqno = s.unaSeqno := by
  obtain ⟨again, hqueue, hagain, frame⟩ := s.tick_effect ms
  have adv : Advanced W s (s.tick ms) := by
    refine advanced_of_eq ?_ ?_ ?_ ?_ ?_ <;> rw [frame]
  refine ⟨h.move (h.inv.tick ms) adv (fun seg hseg => ?_) fun seg hseg => ?_, adv, by rw [frame]⟩
  · rw [frame] at hseg
    exact hseg
  · rw [hqueue] at hseg
    rcases List.mem_append.mp hseg with hold | hnew
    · exact Or.inl hold
    · exact Or.inr (Or.inl (hagain seg hnew))

/-- An empty segment occupies no sequence numbers. -/
theorem Sound.sendEmptySegment {W : List UInt8} {s : TCPSender} (h : Sound W s) :
    Sound W s.sendEmptySegment := by
  refine h.move h.inv.sendEmptySegment (advanced_of_eq rfl rfl rfl rfl rfl)
    (fun _ hseg => hseg) fun seg hseg => ?_
  rcases List.mem_append.mp hseg with hold | hnew
  · exact Or.inl hold
  · rw [List.mem_singleton.mp hnew]
    exact Or.inr (Or.inr ⟨rfl, rfl⟩)

/-- Taking segments off the queue. -/
theorem Sound.dequeue {W : List UInt8} {s : TCPSender} (h : Sound W s)
    {queue : List TCPSegment} (sub : queue ⊆ s.segmentsOut) :
    Sound W { s with segmentsOut := queue } :=
  h.move (h.inv.congr h.inv.windowSize_le rfl) (advanced_of_eq rfl rfl rfl rfl rfl)
    (fun _ hseg => hseg) fun _ hseg => Or.inl (sub hseg)

theorem Sound.endInput {W : List UInt8} {s : TCPSender} (h : Sound W s) :
    Sound W { s with stream := s.stream.endInput } :=
  h.move h.inv.endInput (advanced_of_eq rfl rfl rfl rfl rfl) (fun _ hseg => hseg)
    fun _ hseg => Or.inl hseg

theorem Sound.setError {W : List UInt8} {s : TCPSender} (h : Sound W s) :
    Sound W { s with stream := s.stream.setError } :=
  h.move h.inv.setError (advanced_of_eq rfl rfl rfl rfl rfl) (fun _ hseg => hseg)
    fun _ hseg => Or.inl hseg

/-- Writing extends the stream. -/
theorem Sound.write {W : List UInt8} {s : TCPSender} (h : Sound W s) (data : List UInt8) :
    Sound (W ++ data.take (s.stream.write data).1)
      { s with stream := (s.stream.write data).2 } := by
  have adv : Advanced W s { s with stream := (s.stream.write data).2 } :=
    advanced_of_eq rfl rfl rfl rfl rfl
  refine ⟨h.inv.write data, fun seg hseg => ?_, fun seg hseg => ?_⟩
  · exact ⟨((h.outstanding seg hseg).1.later adv).grow _, (h.outstanding seg hseg).2⟩
  · exact ⟨((h.queued seg hseg).1.later adv).grow _, (h.queued seg hseg).2⟩

end TCPSender

namespace TCPConnection

open TCPSender

/-! ## The operations of the connection -/

/-- What holds of the outbound half between two operations of a connection.  `W` is what the owner
has written so far; the connection itself does not keep it. -/
structure Outbound (W : List UInt8) (c : TCPConnection) : Prop where
  sound : Sound W c.sender
  /-- Until the SYN is sent, the window is one and nothing waits for it. -/
  unsent : c.sender.nextSeqno = 0 → c.sender.windowSize = 1 ∧ c.sender.stream.str = []

/-- A new connection has sent nothing. -/
theorem outbound_new {cfg : TCPConfig} (h : cfg.sendCapacity < 2 ^ 64) :
    Outbound [] (new cfg) :=
  ⟨sound_new h cfg.rtTimeout cfg.fixedIsn, fun _ => ⟨rfl, rfl⟩⟩

/-- What taking the acknowledgment of a segment leaves alone. -/
theorem acknowledge_effect (s : TCPSender) (seg : TCPSegment) :
    (acknowledge s seg).outstandingSegments <:+ s.outstandingSegments ∧
      acknowledge s seg = { s with
        windowSize := (acknowledge s seg).windowSize
        unaSeqno := (acknowledge s seg).unaSeqno
        bytesInFlight := (acknowledge s seg).bytesInFlight
        outstandingSegments := (acknowledge s seg).outstandingSegments
        curRto := (acknowledge s seg).curRto
        consecutiveRetransTimes := (acknowledge s seg).consecutiveRetransTimes
        timer := (acknowledge s seg).timer } := by
  unfold acknowledge
  split
  · exact s.ackReceived_effect _ _
  · exact ⟨List.suffix_rfl, rfl⟩

/-- The window leaves the SYN alone, whatever is written meanwhile. -/
theorem Outbound.synAlone {W : List UInt8} {c : TCPConnection} (h : Outbound W c)
    (stream : ByteStream) : { c.sender with stream := stream }.SynAlone :=
  fun unsent => Or.inl (h.unsent unsent).1.le

/-- Before the SYN is sent nothing waits, whatever window an acknowledgment sets. -/
theorem Outbound.synAlone_acknowledge {W : List UInt8} {c : TCPConnection} (h : Outbound W c)
    (seg : TCPSegment) : (acknowledge c.sender seg).SynAlone := by
  rw [(acknowledge_effect c.sender seg).2]
  intro unsent
  refine Or.inr ?_
  rw [h.sound.inv.buffers.inv.bufferEmpty_iff]
  exact (h.unsent unsent).2

/-- The acknowledgment a segment brings, if it brings one. -/
def acknoOf (seg : TCPSegment) : Option WrappingInt32 :=
  if seg.header.ack then some seg.header.ackno else none

/-- The outcome of an operation that brought the acknowledgment `acked`, as the
network sees it: what is put on the outbound queue is genuine, and an
acknowledgment on it is the receiver's. -/
structure Effect (W : List UInt8) (acked : Option WrappingInt32) (c c' : TCPConnection) :
    Prop where
  outbound : Outbound W c'
  advanced : Advanced W c.sender c'.sender
  /-- Only an acknowledgment moves `_una_seqno`, and to where it points. -/
  una : c'.sender.unaSeqno = c.sender.unaSeqno ∨ ∃ ackno, acked = some ackno ∧
    c'.sender.unaSeqno = unwrap ackno c.sender.isn c.sender.nextSeqno
  emitted : ∃ extra, c'.segmentsOut = c.segmentsOut ++ extra ∧
    ∀ seg ∈ extra, Genuine W c'.sender seg ∧
      (seg.header.ack = true → c'.receiver.ackno = some seg.header.ackno)

section

variable {W : List UInt8} {acked : Option WrappingInt32} {c c' : TCPConnection}

/-- An operation that moves the sender and emits nothing. -/
theorem effect_of_sender (outbound : Outbound W c') (adv : Advanced W c.sender c'.sender)
    (una : c'.sender.unaSeqno = c.sender.unaSeqno)
    (same : c'.segmentsOut = c.segmentsOut) : Effect W acked c c' :=
  ⟨outbound, adv, Or.inl una, [], by rw [same, List.append_nil], by simp⟩

/-- An acknowledgment on a segment is the one the receiver filled in. -/
theorem fillIn_ack {c : TCPConnection} {seg : TCPSegment} (noAck : seg.header.ack = false)
    (h : (c.fillIn seg).header.ack = true) :
    c.receiver.ackno = some (c.fillIn seg).header.ackno := by
  unfold fillIn at h ⊢
  cases hack : c.receiver.ackno with
  | none =>
      rw [hack] at h
      rw [show seg.header.ack = true from h] at noAck
      cases noAck
  | some ackno => rfl

/-- What the receiver fills in does not touch what makes a segment genuine. -/
theorem fillIn_genuine {W : List UInt8} {c : TCPConnection} {s : TCPSender} {seg : TCPSegment}
    (h : Genuine W s seg) : Genuine W s (c.fillIn seg) := by
  unfold fillIn
  cases c.receiver.ackno <;> exact h.congr rfl rfl rfl rfl

/-- **Emptying the queue** at the end of an operation. -/
theorem Effect.sendAll (h : Effect W acked c c') :
    Effect W acked c c'.sendAllOutboundingSegments := by
  obtain ⟨extra, hextra, hprop⟩ := h.emitted
  have sound := h.outbound.sound
  have emptied : Advanced W c'.sender c'.sendAllOutboundingSegments.sender :=
    advanced_of_eq rfl rfl rfl rfl rfl
  refine ⟨⟨sound.dequeue (List.nil_subset _), h.outbound.unsent⟩, h.advanced.trans emptied, h.una,
    extra ++ c'.sender.segmentsOut.map c'.fillIn, ?_, fun seg hseg => ?_⟩
  · rw [← List.append_assoc, ← hextra]
    rfl
  · rcases List.mem_append.mp hseg with hold | hnew
    · exact ⟨(hprop seg hold).1.later emptied, (hprop seg hold).2⟩
    · obtain ⟨queued, hqueued, rfl⟩ := List.mem_map.mp hnew
      obtain ⟨genuine, noAck⟩ := sound.queued queued hqueued
      exact ⟨(fillIn_genuine genuine).later emptied, fillIn_ack noAck⟩

/-- Asking for an empty segment. -/
theorem Effect.sendEmpty (h : Effect W acked c c') :
    Effect W acked c { c' with sender := c'.sender.sendEmptySegment } := by
  obtain ⟨extra, hextra, hprop⟩ := h.emitted
  have queued : Advanced W c'.sender c'.sender.sendEmptySegment :=
    advanced_of_eq rfl rfl rfl rfl rfl
  exact ⟨⟨h.outbound.sound.sendEmptySegment, h.outbound.unsent⟩, h.advanced.trans queued, h.una,
    extra, hextra, fun seg hseg => ⟨(hprop seg hseg).1.later queued, (hprop seg hseg).2⟩⟩

/-- Filling the window, after the sender has moved to `s`. -/
theorem effect_fill {s : TCPSender} (sound : Sound W s) (adv : Advanced W c.sender s)
    (una : s.unaSeqno = c.sender.unaSeqno ∨ ∃ ackno, acked = some ackno ∧
      s.unaSeqno = unwrap ackno c.sender.isn c.sender.nextSeqno)
    (alone : s.SynAlone) (hsender : c'.sender = s.fillWindow)
    (same : c'.segmentsOut = c.segmentsOut) : Effect W acked c c' := by
  obtain ⟨sound', adv', sent, huna⟩ := sound.fillWindow alone
  refine ⟨⟨hsender ▸ sound', fun unsent => absurd (hsender ▸ unsent) sent⟩, ?_, ?_, [], ?_, by simp⟩
  · rw [hsender]
    exact adv.trans adv'
  · rw [hsender, huna]
    exact una
  · rw [same, List.append_nil]

theorem Outbound.connect (h : Outbound W c) : Effect W none c c.connect :=
  Effect.sendAll (effect_fill h.sound (advanced_refl W _) (Or.inl rfl) (h.synAlone _) rfl rfl)

theorem Outbound.write (h : Outbound W c) (data : List UInt8) :
    Effect (W ++ data.take (c.write data).1) none c (c.write data).2 :=
  Effect.sendAll (effect_fill (h.sound.write data) (advanced_of_eq rfl rfl rfl rfl rfl)
    (Or.inl rfl) (h.synAlone _) rfl rfl)

/-- Ending the stream may or may not empty the queue. -/
theorem Outbound.endInputStream (h : Outbound W c) : Effect W none c c.endInputStream := by
  have filled : Effect W none c { c with
      sender := { c.sender with stream := c.sender.stream.endInput }.fillWindow } :=
    effect_fill h.sound.endInput (advanced_of_eq rfl rfl rfl rfl rfl) (Or.inl rfl) (h.synAlone _) rfl rfl
  unfold TCPConnection.endInputStream
  simp only
  split
  · exact filled
  · split
    · exact filled.sendAll
    · exact filled

theorem Outbound.readInbound (h : Outbound W c) (len : ℕ) :
    Effect W none c (c.readInbound len).2 :=
  effect_of_sender ⟨h.sound, h.unsent⟩ (advanced_refl W _) rfl rfl

/-- Setting the error flags sends nothing. -/
theorem Effect.setErrors (h : Effect W acked c c') : Effect W acked c c'.setErrors := by
  obtain ⟨extra, hextra, hprop⟩ := h.emitted
  have broken : Advanced W c'.sender c'.setErrors.sender := advanced_of_eq rfl rfl rfl rfl rfl
  exact ⟨⟨h.outbound.sound.setError, h.outbound.unsent⟩, h.advanced.trans broken, h.una, extra,
    hextra, fun seg hseg => ⟨(hprop seg hseg).1.later broken, (hprop seg hseg).2⟩⟩

/-- The segment that leaves as a RST is one of the queue, and acknowledges nothing. -/
theorem Effect.sendRst (h : Effect W acked c c') : Effect W acked c c'.sendRstSegmenet := by
  have queued := h.sendEmpty
  obtain ⟨extra, hextra, hprop⟩ := queued.emitted
  unfold TCPConnection.sendRstSegmenet
  simp only
  split
  · next seg rest hqueue =>
    have sound := queued.outbound.sound
    have popped : Advanced W c'.sender.sendEmptySegment
        { c'.sender.sendEmptySegment with segmentsOut := rest } :=
      advanced_of_eq rfl rfl rfl rfl rfl
    have hsub : rest ⊆ c'.sender.sendEmptySegment.segmentsOut := by
      rw [hqueue]
      exact List.subset_cons_self seg rest
    obtain ⟨genuine, noAck⟩ := sound.queued seg (by rw [hqueue]; exact List.mem_cons_self)
    refine ⟨⟨sound.dequeue hsub, queued.outbound.unsent⟩, queued.advanced.trans popped, queued.una,
      extra ++ [{ seg with header := { seg.header with rst := true } }], ?_, fun x hx => ?_⟩
    · rw [← List.append_assoc, ← hextra]
    · rcases List.mem_append.mp hx with hold | hnew
      · exact ⟨(hprop x hold).1.later popped, (hprop x hold).2⟩
      · rw [List.mem_singleton.mp hnew]
        refine ⟨(genuine.later popped).congr rfl rfl rfl rfl, fun hack => ?_⟩
        rw [show seg.header.ack = true from hack] at noAck
        cases noAck
  · exact queued

/-- A tick sends again, or resets the connection with a segment of the queue. -/
theorem Outbound.tick (h : Outbound W c) (ms : ℕ) : Effect W none c (c.tick ms) := by
  obtain ⟨sound, adv, una⟩ := h.sound.tick ms
  have ticked : Effect W none c { c with
      timeSinceLastSegReceived := add64 c.timeSinceLastSegReceived ms
      sender := c.sender.tick ms } := by
    refine effect_of_sender ⟨sound, ?_⟩ adv una rfl
    obtain ⟨again, -, -, frame⟩ := c.sender.tick_effect ms
    show (c.sender.tick ms).nextSeqno = 0 → (c.sender.tick ms).windowSize = 1 ∧
      (c.sender.tick ms).stream.str = []
    rw [frame]
    exact h.unsent
  unfold TCPConnection.tick
  simp only
  split
  · exact ticked.sendRst.setErrors
  · exact ticked.sendAll

/-- Taking the acknowledgment of a segment. -/
theorem Outbound.acknowledged (h : Outbound W c) (hnext : c.sender.nextSeqno < 2 ^ 64)
    (seg : TCPSegment) :
    Sound W (acknowledge c.sender seg) ∧
      Advanced W c.sender (acknowledge c.sender seg) ∧
      ((acknowledge c.sender seg).unaSeqno = c.sender.unaSeqno ∨
        ∃ ackno, acknoOf seg = some ackno ∧
          (acknowledge c.sender seg).unaSeqno
            = unwrap ackno c.sender.isn c.sender.nextSeqno) := by
  unfold acknowledge acknoOf
  split
  · obtain ⟨sound, adv, una⟩ := h.sound.ackReceived hnext seg.header.ackno seg.header.win
    exact ⟨sound, adv, una.imp_right fun huna => ⟨_, rfl, huna⟩⟩
  · exact ⟨h.sound, advanced_refl W _, Or.inl rfl⟩

/-- The answer to a segment, once the receiver has taken it. -/
theorem Outbound.respond (h : Outbound W c) (hnext : c.sender.nextSeqno < 2 ^ 64)
    (seg : TCPSegment) : Effect W (acknoOf seg) c (c.respond seg) := by
  obtain ⟨sound, adv, una⟩ := h.acknowledged hnext seg
  have filled : Effect W (acknoOf seg) c (c.refill seg) :=
    effect_fill sound adv una (h.synAlone_acknowledge seg) rfl rfl
  exact respond_rule filled (fun _ queued => queued.sendEmpty) fun _ sent => sent.sendAll

/-- **The effect of a segment** on the outbound half, wherever it comes from. -/
theorem Outbound.segmentReceived (h : Outbound W c) (hnext : c.sender.nextSeqno < 2 ^ 64)
    {seg : TCPSegment} (received : c.segmentReceived seg = .ok c') :
    Effect W (acknoOf seg) c c' := by
  have arrived : Effect W (acknoOf seg) c { c with timeSinceLastSegReceived := 0 } :=
    effect_of_sender ⟨h.sound, h.unsent⟩ (advanced_refl W _) rfl rfl
  rcases segmentReceived_cases received with rfl | rfl | rfl | ⟨receiver, -, -, rfl⟩
  · exact arrived.setErrors
  · exact arrived.sendEmpty.sendAll
  · exact arrived
  · have outbound : Outbound W { c with timeSinceLastSegReceived := 0, receiver := receiver } :=
      ⟨h.sound, h.unsent⟩
    obtain ⟨outbound', adv, una, emitted⟩ := outbound.respond hnext seg
    exact ⟨outbound', adv, una, emitted⟩

/-- The bytes an operation adds to the outbound stream. -/
def acceptedBy (c : TCPConnection) : Op → List UInt8
  | .write data => data.take (c.write data).1
  | _ => []

/-- The acknowledgment an operation brings. -/
def ackedBy : Op → Option WrappingInt32
  | .segment seg => acknoOf seg
  | _ => none

/-- **The effect of any operation** on the outbound half: what was accepted grows by what the
operation wrote, and `_una_seqno` moves only to where an acknowledgment points. -/
theorem Outbound.step (h : Outbound W c) (hnext : c.sender.nextSeqno < 2 ^ 64) {op : Op}
    (hs : c.step op = .ok c') : Effect (W ++ c.acceptedBy op) (ackedBy op) c c' := by
  cases op with
  | write data =>
      obtain rfl := Except.ok.inj hs
      exact h.write data
  | connect =>
      obtain rfl := Except.ok.inj hs
      simpa [acceptedBy, ackedBy] using h.connect
  | endInputStream =>
      obtain rfl := Except.ok.inj hs
      simpa [acceptedBy, ackedBy] using h.endInputStream
  | tick ms =>
      obtain rfl := Except.ok.inj hs
      simpa [acceptedBy, ackedBy] using h.tick ms
  | read len =>
      obtain rfl := Except.ok.inj hs
      simpa [acceptedBy, ackedBy] using h.readInbound len
  | segment seg => simpa [acceptedBy, ackedBy] using h.segmentReceived hnext hs

end

end TCPConnection

end Sponge
