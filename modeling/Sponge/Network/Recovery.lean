import Sponge.Network.HalfClose
import Sponge.Network.Retransmission

/-!
# Nothing that is lost is lost for good

From every state that two connections can get into, the exchange can still be completed,
even if everything that is in flight is lost: the owners read, time passes, and the network
delivers what is sent from now on.

* `recovers` — there is always such a way on.  At its end each side has all that the other's owner
  has written, nothing is in flight, a stream that was ended has ended at the other side, and if both
  were ended, both connections are closed.

### A way on, and why not every way

A network that loses everything for ever delivers nothing, so the theorem is about what
**can** happen and not about what must.  It is stated for the worst place to start from:
`Recovers n₀` only delivers what was sent after `n₀`, so nothing depends on a segment that
was already under way.  What the network and the owners do on the way is within their power
at any time: no call of `connect`, `write` or `end_input_stream` is needed.

### What the condition is

Neither side may have used up its retransmissions (`Patient`): the ninth in a row resets the
connection.  The runs are those in which no FIN overtakes the byte in front of it and no stale
acknowledgment arrives (`Orderly`); both are known to break a connection.

### The argument

A **round** makes `_una_seqno` of one side advance: its peer's owner reads, its timer
expires, the oldest segment is sent again and delivered twice, and the answer is delivered.
What is not acknowledged on the two sides together gets less with every round and a round is
possible as long as anything is outstanding, so the rounds come to an end
(`GuardedRun.reaches`).  Then all that was written has been sent, for the window is never
taken to be empty, and all that was sent has been received (`Linked.delivered`).
-/

namespace Sponge

open Runs TCPSender

namespace TCPConnection

variable {c c' : TCPConnection} {op : Op}

/-- The capacity of a receiver is for good. -/
theorem step_capacity (stepped : c.step op = .ok c') :
    c'.receiver.capacity = c.receiver.capacity := by
  rcases step_receiver stepped with ⟨-, same | failed⟩ | ⟨len, -, read⟩ | ⟨seg, -, -, received⟩
  · rw [same]
  · rw [failed]; rfl
  · rw [read]; rfl
  · exact (TCPReceiver.segmentReceived_cases received).2.1

/-- A segment that arrives is no retransmission. -/
theorem segment_retries {seg : TCPSegment} (stepped : c.step (.segment seg) = .ok c') :
    c'.sender.consecutiveRetransTimes ≤ c.sender.consecutiveRetransTimes := by
  obtain ⟨s, moved, frame⟩ := step_moved stepped
  have same : c'.sender.consecutiveRetransTimes = s.consecutiveRetransTimes := by
    rw [SameButQueue] at frame
    rw [frame]
  rw [same]
  cases moved with
  | same => exact le_rfl
  | filled restocked => exact restocked.elim
  | answered => exact (fillWindow_retries _).trans_le (acknowledge_retries c.sender seg)

/-- **With nothing outstanding and both streams ended, time closes the connection**, or it was reset
before. -/
theorem tick_closes (settled : c.sender.outstandingSegments = [])
    (retries : c.sender.consecutiveRetransTimes ≤ TCPConfig.maxRetxAttempts)
    (idle : c.sender.bytesInFlight = 0) (outEnded : c.OutEnded)
    (inEnded : c.receiver.streamOut.inputEnded = true) :
    ∃ ms < 2 ^ 64, (c.tick ms).active = false ∧ (c.tick ms).receiver = c.receiver ∧
      (c.tick ms).sender.bytesInFlight = c.sender.bytesInFlight := by
  have short := c.cfg.rtTimeout.toNat_lt
  set ms := 10 * c.cfg.rtTimeout.toNat - c.timeSinceLastSegReceived % 2 ^ 64 with hms
  have waited : 10 * c.cfg.rtTimeout.toNat ≤ add64 c.timeSinceLastSegReceived ms := by
    unfold add64
    omega
  have ticked : c.tick ms = { c with
      timeSinceLastSegReceived := add64 c.timeSinceLastSegReceived ms
      sender := { c.sender with
        curTime := add64 c.sender.curTime ms
        timer := c.sender.timer.tick ms } }.sendAllOutboundingSegments := by
    unfold TCPConnection.tick
    simp only
    rw [tick_of_settled settled ms, if_neg (not_lt.mpr retries)]
  refine ⟨ms, by omega, ?_, ?_, ?_⟩ <;> rw [ticked]
  · cases reset : c.sender.stream.error || c.receiver.streamOut.error with
    | true => exact if_pos reset
    | false =>
        obtain ⟨noError, noError'⟩ := Bool.or_eq_false_iff.mp reset
        refine (inactive_iff ?_).mpr ⟨.inr ?_, idle, outEnded, inEnded⟩
        · exact ⟨noError, noError'⟩
        · exact waited
  · rfl
  · rfl

end TCPConnection

namespace Host

variable {p h : Host}

/-- **With nothing outstanding, all that was written has arrived**, and the end of the stream too. -/
theorem Linked.delivered (link : Linked p h) (poised : p.conn.Poised)
    (settled : p.conn.sender.outstandingSegments = []) :
    h.written = p.accepted ∧ p.conn.sender.bytesInFlight = 0 ∧
      (p.conn.OutEnded → h.conn.receiver.streamOut.inputEnded = true) := by
  have inv := link.outgoing.outbound.sound.inv
  have hcur : h.conn.receiver.curIndex ≤ p.accepted.length := link.incoming.faithful.curIndex_le
  have reached := link.delivering.una_le
  have acked : p.conn.sender.unaSeqno = p.conn.sender.nextSeqno := by
    obtain ⟨first, placed, -, una⟩ := inv.inFlight
    rw [settled] at placed una
    exact una.trans placed
  have idle := inv.idle_of_acked acked
  rcases poised.exhausted with ended | full | ⟨empty, still⟩
  · -- the acknowledgment of the FIN is only made when the stream has ended
    have complete := link.settled.complete ended
    have inEnded : h.conn.receiver.streamOut.inputEnded = true := by
      by_contra notEnded
      rw [TCPReceiver.ackPosition, if_neg notEnded] at reached
      omega
    exact ⟨link.delivering.written_of_ended inEnded, idle, fun _ => inEnded⟩
  · -- a window is never taken to be empty
    have : p.conn.sender.actualWindowSize ≠ 0 := by
      unfold actualWindowSize
      split <;> omega
    omega
  · have notEnded : ¬p.conn.sender.isTransmissionEnded = true := fun ended => by
      have closed := inv.closed ended
      rw [show p.conn.sender.stream.inputIsEnd = false from still] at closed
      cases closed
    have running : ¬h.conn.receiver.streamOut.inputEnded = true := fun ended =>
      notEnded (link.heard.ended (.inl ended))
    have hrest := inv.buffers.rest
    rw [inv.buffers.inv.bufferEmpty_iff.mp empty, List.drop_eq_nil_iff] at hrest
    have all : p.accepted.length ≤ h.conn.receiver.curIndex := by
      rw [TCPReceiver.ackPosition, if_neg running] at reached
      by_cases unsent : p.conn.sender.nextSeqno = 0
      · have := (inv.positioned.unsent unsent).1
        omega
      · have := inv.positioned.sent unsent
        rw [if_neg notEnded] at this
        omega
    have written : h.written = p.accepted.take h.conn.receiver.curIndex :=
      link.delivering.endHeld.faithful.written_eq
    refine ⟨written.trans (List.take_of_length_le all), idle, fun out => ?_⟩
    rw [TCPConnection.OutEnded, still] at out
    cases out

/-- The host has retransmissions left. -/
def Patient (h : Host) : Prop :=
  h.conn.sender.consecutiveRetransTimes < TCPConfig.maxRetxAttempts

instance (h : Host) : Decidable h.Patient := inferInstanceAs (Decidable (_ < _))

/-- What its owner has written and the peer has not acknowledged, with the SYN and the FIN. -/
def unacknowledged (h : Host) : ℕ := h.accepted.length + 2 - h.conn.sender.unaSeqno

/-- The host, with all that is queued on its way. -/
def drained (h : Host) : Host :=
  { h with
    conn := { h.conn with segmentsOut := [] }
    wire := h.wire ++ h.conn.segmentsOut }

/-- Putting one segment on the network is a part of putting all of them there. -/
theorem drained_transmit {h : Host} {seg : TCPSegment} {rest : List TCPSegment}
    (queue : h.conn.segmentsOut = seg :: rest) :
    h.transmit.conn.segmentsOut = rest ∧ h.transmit.drained = h.drained := by
  unfold transmit drained
  simp [queue]

end Host

namespace Network

open Host

/-! ## Orderly runs -/

/-- An operation that is not known to break a connection.  The first two are what the invariant of
the acknowledgments needs, and the third is what that of the windows needs. -/
structure Orderly (n : Network) (op : Op) : Prop where
  noWrite : n.NoWriteAfterEnd op
  finInOrder : n.FinInOrder op
  freshAck : n.FreshAck op

instance (n : Network) (op : Op) : Decidable (n.Orderly op) :=
  decidable_of_iff (n.NoWriteAfterEnd op ∧ n.FinInOrder op ∧ n.FreshAck op)
    ⟨fun ⟨h, h', h''⟩ => ⟨h, h', h''⟩, fun ⟨h, h', h''⟩ => ⟨h, h', h''⟩⟩

/-- All that is known of two connections after an orderly run.  It is collected here so that each
step of a recovery can be taken from any state that a run has led to. -/
structure Steady (cfg : Side → TCPConfig) (n : Network) : Prop where
  bounded : n.Bounded
  faithful : n.Faithful
  acknowledged : n.Acknowledged
  granted : n.Granted
  heard : n.Heard
  poised : ∀ side, (n side).conn.Poised
  capacity : ∀ side, (n side).conn.receiver.capacity = (cfg side).recvCapacity

/-- Two hosts that have done nothing. -/
theorem steady_start {cfg : Side → TCPConfig}
    (hrecv : ∀ side, (cfg side).recvCapacity < 2 ^ 64)
    (hsend : ∀ side, (cfg side).sendCapacity < 2 ^ 64) : Steady cfg (start cfg) where
  bounded := fun _ => show 0 < 2 ^ 31 - 2 by decide
  faithful := faithful_start hrecv hsend
  acknowledged := acknowledged_start hrecv
  granted := granted_start hrecv
  heard := heard_start cfg
  poised := fun side => TCPConnection.poised_new (cfg side)
  capacity := fun _ => rfl

/-- A property of each connection that does not depend on its queue. -/
theorem forall_step {P : Side → TCPConnection → Prop} {n n' : Network} {op : Op}
    (here : ∀ side, P side (n side).conn) (step : n.step op = .ok n')
    (queue : ∀ side (c : TCPConnection) segs, P side c → P side { c with segmentsOut := segs })
    (acts : ∀ side act c, (n side).conn.step act = .ok c → P side c) (side : Side) :
    P side (n' side).conn := by
  have updated : ∀ {side' : Side} {h' : Host}, P side' h'.conn →
      P side (Function.update n side' h' side).conn := fun changed =>
    (Function.forall_update_iff n fun side h => P side h.conn).mpr
      ⟨changed, fun side _ => here side⟩ side
  rcases step_cases step with rfl | ⟨side', rfl⟩ | ⟨side', act, h', hact, rfl, -, -⟩
  · exact here side
  · refine updated ?_
    rw [transmit_frame]
    exact queue _ _ _ (here side')
  · exact updated (acts side' act h'.conn (act_cases hact).1)

/-- One orderly step. -/
theorem Steady.step {cfg : Side → TCPConfig} {n n' : Network} {op : Op} (steady : Steady cfg n)
    (bounded' : n'.Bounded) (orderly : n.Orderly op) (step : n.step op = .ok n') :
    Steady cfg n' := by
  obtain ⟨bounded, faithful, acknowledged, granted, heard, poised, capacity⟩ := steady
  exact ⟨bounded', faithful.step bounded step,
    acknowledged.step faithful bounded orderly.noWrite orderly.finInOrder step,
    granted.step faithful bounded orderly.freshAck step, heard.step faithful bounded step,
    forall_step (P := fun _ c => c.Poised) poised step
      (fun _ _ _ h => ⟨h.exhausted, h.armed, h.unreset⟩)
      fun side _ _ stepped => (poised side).step (faithful side).1.outbound stepped,
    forall_step (P := fun side c => c.receiver.capacity = (cfg side).recvCapacity) capacity step
      (fun _ _ _ h => h) fun side _ _ stepped =>
        (TCPConnection.step_capacity stepped).trans (capacity side)⟩

theorem steady_of_run {cfg : Side → TCPConfig}
    (hrecv : ∀ side, (cfg side).recvCapacity < 2 ^ 64)
    (hsend : ∀ side, (cfg side).sendCapacity < 2 ^ 64) {n : Network}
    (run : GuardedRun step Orderly (start cfg) n) (bounded : n.Bounded) : Steady cfg n :=
  run.invariant (fun n => n.Bounded → Steady cfg n) (fun _ => steady_start hrecv hsend)
    (fun _ _ _ ih orderly step bounded' => (ih (bounded'.before step)).step bounded' orderly step)
    bounded

/-! ## Recovery -/

/-- What may happen once everything in flight has been lost: time passes, the owners read, and what
was sent after `n` is delivered. -/
def Recovering (n : Network) : Op → Prop
  | .tick _ ms => ms < 2 ^ 64
  | .read _ len => len < 2 ^ 64
  | .transmit _ => True
  | .deliver side i => (n side.peer).wire.length ≤ i
  | .connect _ | .write _ _ | .endInputStream _ => False

/-- One state can be reached from another although all that was sent before `n₀` is lost. -/
def Recovers (n₀ : Network) : Network → Network → Prop :=
  GuardedRun step fun n op => n.Orderly op ∧ n₀.Recovering op

/-- What a recovery never takes back.  The owners are silent in it, so what was accepted stays the
same, and the wire only grows, so an index into it stays good. -/
structure Ahead (n n' : Network) : Prop where
  accepted : ∀ side, (n' side).accepted = (n side).accepted
  una_le : ∀ side, (n side).conn.sender.unaSeqno ≤ (n' side).conn.sender.unaSeqno
  wire_le : ∀ side, (n side).wire.length ≤ (n' side).wire.length
  ended : ∀ side, (n side).conn.OutEnded → (n' side).conn.OutEnded

/-- Nothing has happened. -/
theorem ahead_refl (n : Network) : Ahead n n :=
  ⟨fun _ => rfl, fun _ => le_rfl, fun _ => le_rfl, fun _ => id⟩

theorem Ahead.trans {n n' n'' : Network} (h : Ahead n n') (h' : Ahead n' n'') : Ahead n n'' where
  accepted side := (h'.accepted side).trans (h.accepted side)
  una_le side := (h.una_le side).trans (h'.una_le side)
  wire_le side := (h.wire_le side).trans (h'.wire_le side)
  ended side := h'.ended side ∘ h.ended side

section

variable {cfg : Side → TCPConfig} {n₀ n n' : Network} {op : Op} {side p h : Side}

/-- One step of a recovery: the owners write nothing, and nothing else takes anything back. -/
theorem Steady.ahead (steady : Steady cfg n) (recovering : n₀.Recovering op)
    (step : n.step op = .ok n') : Ahead n n' := by
  have updated : ∀ {side : Side} {h' : Host}, h'.accepted = (n side).accepted →
      (n side).conn.sender.unaSeqno ≤ h'.conn.sender.unaSeqno →
      (n side).wire.length ≤ h'.wire.length →
      ((n side).conn.OutEnded → h'.conn.OutEnded) → Ahead n (Function.update n side h') := by
    intro side h' accepted una wire ended
    have both := (Function.forall_update_iff n fun side h => h.accepted = (n side).accepted ∧
      (n side).conn.sender.unaSeqno ≤ h.conn.sender.unaSeqno ∧
      (n side).wire.length ≤ h.wire.length ∧
      ((n side).conn.OutEnded → h.conn.OutEnded)).mpr
        ⟨⟨accepted, una, wire, ended⟩, fun _ _ => ⟨rfl, le_rfl, le_rfl, id⟩⟩
    exact ⟨fun side => (both side).1, fun side => (both side).2.1, fun side => (both side).2.2.1,
      fun side => (both side).2.2.2⟩
  rcases step_cases step with rfl | ⟨side, rfl⟩ | ⟨side, act, h', hact, rfl, sent, written⟩
  · exact ahead_refl _
  · have grown : (n side).wire.length ≤ (n side).transmit.wire.length := by
      unfold Host.transmit
      split
      · exact le_rfl
      · exact (List.sublist_append_left _ _).length_le
    refine updated ?_ ?_ grown ?_ <;> rw [transmit_frame]
    exact id
  · obtain ⟨stepped, accepted, -, wire, -⟩ := act_cases hact
    have outgoing := (steady.faithful side).1
    have effect := outgoing.effect (outgoing.nextSeqno_lt (steady.bounded side)) hact
    refine updated ?_ effect.advanced.una_le (wire ▸ le_rfl) fun ended => ended.step stepped
    rw [accepted]
    cases act with
    | write data =>
        -- the owners write nothing during a recovery
        rw [written data rfl] at recovering
        exact recovering.elim
    | _ => exact List.append_nil _

/-- A whole recovery. -/
theorem Steady.along (steady : Steady cfg n) (recovers : Recovers n₀ n n') :
    Steady cfg n' ∧ Ahead n n' :=
  recovers.invariant (fun n' => Steady cfg n' ∧ Ahead n n') ⟨steady, ahead_refl n⟩
    fun m op m' ⟨steady, ahead⟩ admitted step => by
      have further := steady.ahead admitted.2 step
      have bounded : m'.Bounded := fun side => (further.accepted side).symm ▸ steady.bounded side
      exact ⟨steady.step bounded admitted.1 step, ahead.trans further⟩

/-- What is known of one direction.  The sides have names of their own here: with `p = h.peer` one
lemma serves for both. -/
theorem Steady.linked (steady : Steady cfg n) (peers : p = h.peer) : Host.Linked (n p) (n h) := by
  subst peers
  exact ⟨steady.bounded _, (steady.faithful _).1, (steady.acknowledged _).1,
    (steady.faithful h).2, (steady.acknowledged h).2, steady.granted h, steady.heard h⟩

/-- The capacity of the inbound stream is the one configured. -/
theorem Steady.output (steady : Steady cfg n) (side : Side) :
    (n side).conn.receiver.streamOut.Inv ∧
      (n side).conn.receiver.streamOut.capacity = (cfg side).recvCapacity := by
  have inv := (steady.faithful side).2.receiver
  exact ⟨inv.reassembler.output, inv.capacity_eq.trans (steady.capacity side)⟩

/-- The edge of the window stays a 64-bit number, if the capacity leaves it room. -/
theorem Steady.edge_lt (steady : Steady cfg n) (narrow : (cfg side).recvCapacity < 2 ^ 63) :
    (n side).edge < 2 ^ 64 := by
  have hcur := (steady.linked (h := side) rfl).bounds.2
  have inv := (steady.faithful side).2.receiver
  obtain ⟨output, capacity⟩ := steady.output side
  rw [edge_eq inv, inv.windowSize_eq, output.remainingCapacity_eq, capacity]
  omega

/-! ## The parts of a round -/

theorem recovers_of_step (op : Op) (orderly : n.Orderly op) (recovering : n₀.Recovering op)
    (stepped : n.step op = .ok n') : Recovers n₀ n n' :=
  .tail .refl ⟨orderly, recovering⟩ stepped

/-- All that is queued is put on the network. -/
theorem recovers_drained (n₀ n : Network) (side : Side) :
    Recovers n₀ n (Function.update n side (n side).drained) := by
  generalize hqueue : (n side).conn.segmentsOut = queue
  induction queue generalizing n with
  | nil =>
      have same : (n side).drained = n side := by
        unfold Host.drained
        rw [hqueue, List.append_nil, ← hqueue]
      rw [same, Function.update_eq_self]
      exact .refl
  | cons seg rest ih =>
      obtain ⟨hrest, hdrained⟩ := drained_transmit hqueue
      have sent : Recovers n₀ n (Function.update n side (n side).transmit) :=
        recovers_of_step (.transmit side) ⟨trivial, trivial, trivial⟩ trivial rfl
      have later := ih (Function.update n side (n side).transmit)
        (by rw [Function.update_self]; exact hrest)
      rw [Function.update_self, Function.update_idem, hdrained] at later
      exact sent.trans later

/-- The owner reads all there is, and the receiver has room. -/
theorem Steady.reads (steady : Steady cfg n)
    (roomy : 0 < (cfg side).recvCapacity ∧ (cfg side).recvCapacity < 2 ^ 63) (n₀ : Network) :
    ∃ h, Recovers n₀ n (Function.update n side h) ∧ 0 < h.conn.receiver.windowSize ∧
      h.conn.sender = (n side).conn.sender := by
  set len := (n side).conn.receiver.streamOut.str.length with hlen
  obtain ⟨h, acted⟩ : ∃ h, (n side).act (.read len) = .ok h := ⟨_, rfl⟩
  have read : ((n side).conn.readInbound len).2 = h.conn := Except.ok.inj (act_cases acted).1
  obtain ⟨output, capacity⟩ := steady.output side
  have short : len < 2 ^ 64 := by
    have := output.le_capacity
    omega
  refine ⟨h, recovers_of_step (.read side len) ⟨trivial, trivial, trivial⟩ short ?_, ?_, ?_⟩
  · simp only [Network.step, Network.act, acted]
  · have inv := (steady.faithful side).2.receiver
    have inv' := inv.readOut len
    have popped : ((n side).conn.receiver.readOut len).2.streamOut
        = (n side).conn.receiver.streamOut.popOutput len := by
      simp only [TCPReceiver.streamOut, TCPReceiver.readOut, inv.reassembler.readOut_eq]
    rw [← read]
    show 0 < ((n side).conn.receiver.readOut len).2.windowSize
    rw [inv'.windowSize_eq, popped, (output.popOutput len).remainingCapacity_eq,
      output.popOutput_str, hlen, List.drop_length, ByteStream.popOutput_capacity, capacity]
    exact roomy.1
  · rw [← read]
    rfl

/-- **The timer expires**, and the oldest segment is on the network once more.  All that is in
front of it in the queue is transmitted first; nobody has to deliver it. -/
theorem Steady.repeats (steady : Steady cfg n)
    (outstanding : (n side).conn.sender.outstandingSegments ≠ []) (patient : (n side).Patient)
    (n₀ : Network) :
    ∃ p a seg i, Recovers n₀ n (Function.update n side p) ∧ p.Repeats a seg ∧
      (n side).wire.length ≤ i ∧ p.wire[i]? = some seg := by
  obtain ⟨ms, hms, p, a, seg, queue, acted, hwire, hqueue, rep⟩ :=
    (steady.faithful side).1.repeats (steady.bounded side) (steady.poised side) outstanding patient
  have ticked : Recovers n₀ n (Function.update n side p) := by
    refine recovers_of_step (.tick side ms) ⟨trivial, trivial, trivial⟩ hms ?_
    simp only [Network.step, Network.act, acted]
  have drained := recovers_drained n₀ (Function.update n side p) side
  rw [Function.update_self, Function.update_idem] at drained
  refine ⟨p.drained, a, seg, (p.wire ++ queue).length, ticked.trans drained,
    ⟨rep.oldest, rep.noRst, rep.own⟩, ?_, ?_⟩
  · rw [hwire]
    exact (List.sublist_append_left _ _).length_le
  · show (p.wire ++ p.conn.segmentsOut)[_]? = _
    rw [hqueue, ← List.append_assoc, List.getElem?_concat_length]

/-- A segment that was sent in the meantime is delivered. -/
theorem Steady.delivers (steady : Steady cfg n) (peers : p = h.peer) {seg : TCPSegment} {i : ℕ}
    (hseg : (n p).wire[i]? = some seg) (later : (n₀ p).wire.length ≤ i)
    (finInOrder : (n h).conn.receiver.FinInOrder seg) (freshAck : (n h).FreshAck seg) :
    ∃ h', (n h).act (.segment seg) = .ok h' ∧ Recovers n₀ n (Function.update n h h') := by
  subst peers
  obtain ⟨n', stepped⟩ :=
    steady.granted.succeeds steady.faithful steady.bounded (.deliver h i)
  have orderly : n.Orderly (.deliver h i) := by
    refine ⟨trivial, fun seg' hseg' => ?_, fun seg' hseg' => ?_⟩
    · obtain rfl := Option.some.inj (hseg.symm.trans hseg')
      exact finInOrder
    · obtain rfl := Option.some.inj (hseg.symm.trans hseg')
      exact freshAck
  cases acted : (n h).act (.segment seg) with
  | error fault =>
      simp only [Network.step, hseg, Network.act, acted] at stepped
      cases stepped
  | ok h' =>
      refine ⟨h', rfl, recovers_of_step _ orderly later ?_⟩
      simp only [Network.step, hseg, Network.act, acted]

/-! ## A round -/

/-- **First the segment**: the receiver makes room, and the oldest segment is sent again. -/
theorem Steady.repeated (steady : Steady cfg n) (peers : p = h.peer)
    (roomy : 0 < (cfg h).recvCapacity ∧ (cfg h).recvCapacity < 2 ^ 63)
    (outstanding : (n p).conn.sender.outstandingSegments ≠ []) (patient : ∀ side, (n side).Patient)
    (n₀ : Network) :
    ∃ n' a seg i, Recovers n₀ n n' ∧ (n' p).Repeats a seg ∧ (n p).wire.length ≤ i ∧
      (n' p).wire[i]? = some seg ∧ 0 < (n' h).conn.receiver.windowSize ∧ (n' h).Patient := by
  have ne : p ≠ h := peers ▸ h.peer_ne
  obtain ⟨x, read, room, sender⟩ := steady.reads roomy n₀
  obtain ⟨steady', -⟩ := steady.along read
  have same : Function.update n h x p = n p := Function.update_of_ne ne ..
  obtain ⟨y, a, seg, i, sent, rep, later, hseg⟩ :=
    steady'.repeats (by rwa [same]) (same ▸ patient p) n₀
  rw [same] at later
  have here : Function.update (Function.update n h x) p y p = y := Function.update_self ..
  have there : Function.update (Function.update n h x) p y h = x := by
    rw [Function.update_of_ne ne.symm, Function.update_self]
  refine ⟨_, a, seg, i, read.trans sent, ?_⟩
  rw [here, there, Host.Patient, sender]
  exact ⟨rep, later, hseg, room, patient h⟩

/-- **Then the answer**: the segment is delivered twice, and the acknowledgment is sent. -/
theorem Steady.answers (steady : Steady cfg n) (peers : p = h.peer)
    (narrow : (cfg h).recvCapacity < 2 ^ 63) {a i : ℕ} {seg : TCPSegment}
    (rep : (n p).Repeats a seg) (hseg : (n p).wire[i]? = some seg)
    (later : (n₀ p).wire.length ≤ i) (room : 0 < (n h).conn.receiver.windowSize)
    (patient : (n h).Patient) :
    ∃ n' j, Recovers n₀ n n' ∧ n' p = n p ∧ Knows (n p) (n' h) ∧
      (n p).conn.sender.unaSeqno < (n' h).conn.receiver.ackPosition ∧
      (n h).wire.length ≤ j ∧ (n' h).wire[j]? = some (n' h).conn.bareAck ∧ (n' h).Patient := by
  have ne : p ≠ h := peers ▸ h.peer_ne
  have peers' : h = p.peer := by rw [peers, Side.peer_peer]
  have link := steady.linked peers
  have back := steady.linked peers'
  obtain ⟨h₁, first, delivered⟩ := steady.delivers peers hseg later (link.finInOrder rep)
    (back.freshAck rep)
  obtain ⟨steady₁, -⟩ := steady.along delivered
  have same : ∀ x, Function.update n h x p = n p := fun _ => Function.update_of_ne ne ..
  have here : Function.update n h h₁ h = h₁ := Function.update_self ..
  have link₁ := steady₁.linked peers
  have back₁ := steady₁.linked peers'
  rw [same, here] at link₁ back₁
  -- once more: now the segment is old, and the answer to it is a bare acknowledgment
  obtain ⟨h₂, second, again⟩ := steady₁.delivers peers (by rwa [same]) later
    (here.symm ▸ link₁.finInOrder rep) (here.symm ▸ back₁.freshAck rep)
  rw [here] at second
  rw [Function.update_idem] at again
  have drained := recovers_drained n₀ (Function.update n h h₂) h
  rw [Function.update_self, Function.update_idem] at drained
  obtain ⟨known, advances, queue⟩ := link.twice back link₁ back₁ (here ▸ steady₁.poised h) rep room
    (steady.edge_lt narrow) first second
  have there : Function.update n h h₂.drained h = h₂.drained := Function.update_self ..
  refine ⟨_, (h₂.wire ++ h₁.conn.segmentsOut).length, (delivered.trans again).trans drained, same _,
    ?_⟩
  rw [there]
  refine ⟨known, advances, ?_, ?_, ?_⟩
  · rw [(act_cases second).2.2.2.1, (act_cases first).2.2.2.1]
    exact (List.sublist_append_left _ _).length_le
  · show (h₂.wire ++ h₂.conn.segmentsOut)[_]? = some h₂.conn.bareAck
    rw [queue, ← List.append_assoc, List.getElem?_concat_length]
  · exact ((TCPConnection.segment_retries (act_cases second).1).trans
      (TCPConnection.segment_retries (act_cases first).1)).trans_lt patient

/-- **Then the acknowledgment is delivered**, and `_una_seqno` moves.  With it the count of
retransmissions is back at zero, so a recovery may take any number of rounds. -/
theorem Steady.hears (steady : Steady cfg n) (peers : p = h.peer) {j : ℕ}
    (known : Knows (n p) (n h))
    (advances : (n p).conn.sender.unaSeqno < (n h).conn.receiver.ackPosition)
    (hack : (n h).wire[j]? = some (n h).conn.bareAck) (later : (n₀ h).wire.length ≤ j) :
    ∃ p', Recovers n₀ n (Function.update n p p') ∧
      (n p).conn.sender.unaSeqno < p'.conn.sender.unaSeqno ∧ p'.Patient := by
  have peers' : h = p.peer := by rw [peers, Side.peer_peer]
  have link := steady.linked peers
  have noFin : (n p).conn.receiver.FinInOrder (n h).conn.bareAck := by
    intro _ isn _ fin
    rw [(n h).conn.bareAck_header.2.1] at fin
    cases fin
  have fresh : (n p).FreshAck (n h).conn.bareAck := by
    intro _
    rw [(link.bareAck_points known).2]
    exact advances.le
  obtain ⟨p', acted, delivered⟩ := steady.delivers peers' hack later noFin fresh
  obtain ⟨una, retries⟩ := link.answered (steady.linked peers') known advances acted
  refine ⟨p', delivered, una.symm ▸ advances, ?_⟩
  rw [Host.Patient, retries]
  decide

/-- A state on the way: nothing is taken back, and neither side has used up its retransmissions. -/
structure Underway (cfg : Side → TCPConfig) (n₀ n : Network) : Prop where
  steady : Steady cfg n
  ahead : Ahead n₀ n
  patient : ∀ side, (n side).Patient

/-- **A round** moves `_una_seqno` of a side that has something outstanding: the segment, its
answer, the acknowledgment.  On the other side nothing is taken back by it. -/
theorem Underway.round (underway : Underway cfg n₀ n)
    (roomy : ∀ side, 0 < (cfg side).recvCapacity ∧ (cfg side).recvCapacity < 2 ^ 63)
    (outstanding : (n p).conn.sender.outstandingSegments ≠ []) :
    ∃ n', Recovers n₀ n n' ∧ Underway cfg n₀ n' ∧ Ahead n n' ∧
      (n p).conn.sender.unaSeqno < (n' p).conn.sender.unaSeqno := by
  obtain ⟨steady, ahead, patient⟩ := underway
  obtain ⟨h, peers⟩ : ∃ h : Side, p = h.peer := ⟨p.peer, p.peer_peer.symm⟩
  have ne : p ≠ h := peers ▸ h.peer_ne
  -- `p` sends its oldest segment again
  obtain ⟨n₁, a, seg, i, sent, rep, hi, hseg, room, patient₁⟩ :=
    steady.repeated peers (roomy h) outstanding patient n₀
  obtain ⟨steady₁, ahead₁⟩ := steady.along sent
  -- `h` receives it and acknowledges it
  obtain ⟨n₂, j, answered, same, known, advances, hj, hack, patient₂⟩ :=
    steady₁.answers peers (roomy h).2 rep hseg ((ahead.wire_le p).trans hi) room patient₁
  obtain ⟨steady₂, ahead₂⟩ := steady₁.along answered
  -- and `p` hears of that
  obtain ⟨p', heard, moved, patient₃⟩ :=
    steady₂.hears peers (same ▸ known) (same ▸ advances) hack
      (((ahead.trans ahead₁).wire_le h).trans hj)
  obtain ⟨steady₃, ahead₃⟩ := steady₂.along heard
  have onward := (ahead₁.trans ahead₂).trans ahead₃
  refine ⟨_, (sent.trans answered).trans heard, ⟨steady₃, ahead.trans onward, fun side => ?_⟩,
    onward, ?_⟩
  · rcases h.eq_or_eq_peer side with rfl | rfl
    · rw [Function.update_of_ne ne.symm]
      exact patient₂
    · rw [← peers, Function.update_self]
      exact patient₃
  · rw [Function.update_self]
    exact ((ahead₁.trans ahead₂).una_le p).trans_lt moved

/-- **The rounds come to an end**: what is not acknowledged gets less with each. -/
theorem Underway.completes (underway : Underway cfg n₀ n)
    (roomy : ∀ side, 0 < (cfg side).recvCapacity ∧ (cfg side).recvCapacity < 2 ^ 63) :
    ∃ n', Recovers n₀ n n' ∧ Underway cfg n₀ n' ∧
      ∀ side, (n' side).conn.sender.outstandingSegments = [] := by
  refine GuardedRun.reaches (Underway cfg n₀)
    (fun n => (n .a).unacknowledged + (n .b).unacknowledged) (fun n underway open' => ?_) underway
  obtain ⟨p, outstanding⟩ := not_forall.mp open'
  obtain ⟨n', round, underway', onward, moved⟩ := underway.round roomy outstanding
  refine ⟨n', round, underway', ?_⟩
  have kept : ∀ side, (n' side).unacknowledged ≤ (n side).unacknowledged := fun side => by
    have := onward.una_le side
    rw [Host.unacknowledged, Host.unacknowledged, onward.accepted side]
    omega
  have less : (n' p).unacknowledged < (n p).unacknowledged := by
    have outgoing := (underway'.steady.faithful p).1
    have hnext := outgoing.nextSeqno_le
    have huna := outgoing.outbound.sound.inv.una_le_next
    rw [onward.accepted p] at hnext
    rw [Host.unacknowledged, Host.unacknowledged, onward.accepted p]
    omega
  have := kept .a
  have := kept .b
  cases p with
  | a => omega
  | b => omega

/-! ## The end -/

/-- **Both connections close** when all is acknowledged and enough time has passed.  Which of them
lingers does not matter: time passes on both sides. -/
theorem Underway.closes (underway : Underway cfg n₀ n)
    (settled : ∀ side, (n side).conn.sender.outstandingSegments = [])
    (ended : ∀ side, (n side).conn.OutEnded) :
    ∃ n', Recovers n₀ n n' ∧ ∀ side, (n' side).conn.active = false ∧
      (n' side).written = (n side).written ∧
      (n' side).conn.receiver = (n side).conn.receiver ∧
      (n' side).conn.sender.bytesInFlight = (n side).conn.sender.bytesInFlight := by
  have waits : ∀ side, ∃ ms < 2 ^ 64, ∃ h, (n side).act (.tick ms) = .ok h ∧
      h.conn.active = false ∧ h.written = (n side).written ∧
      h.conn.receiver = (n side).conn.receiver ∧
      h.conn.sender.bytesInFlight = (n side).conn.sender.bytesInFlight := fun side => by
    have out := (underway.steady.linked side.peer_peer.symm).delivered
      (underway.steady.poised side) (settled side)
    have inEnded := ((underway.steady.linked (h := side) rfl).delivered
      (underway.steady.poised _) (settled _)).2.2 (ended _)
    obtain ⟨ms, hms, inactive, receiver, flight⟩ := TCPConnection.tick_closes (settled side)
      (underway.patient side).le out.2.1 (ended side) inEnded
    obtain ⟨h, acted⟩ : ∃ h, (n side).act (.tick ms) = .ok h := ⟨_, rfl⟩
    have ticked : (n side).conn.tick ms = h.conn := Except.ok.inj (act_cases acted).1
    refine ⟨ms, hms, h, acted, ticked ▸ inactive, ?_, ticked ▸ receiver, ticked ▸ flight⟩
    have popped := (act_cases acted).2.2.1
    rw [Host.written, Host.written, popped, ← ticked, receiver]
    exact congrArg (· ++ _) (List.append_nil _)
  -- each side waits by itself, so the two ticks can be made one after the other
  choose ms hms h acted result using waits
  have tick : ∀ n side, (n side).act (.tick (ms side)) = .ok (h side) →
      Recovers n₀ n (Function.update n side (h side)) := by
    intro n side acted
    refine recovers_of_step (.tick side (ms side)) ⟨trivial, trivial, trivial⟩ (hms side) ?_
    simp only [Network.step, Network.act, acted]
  refine ⟨_, (tick n .a (acted .a)).trans (tick _ .b (acted .b)), fun side => ?_⟩
  have here : Function.update (Function.update n .a (h .a)) .b (h .b) side = h side := by
    cases side <;> rfl
  rw [here]
  exact result side

end

/-- **Nothing that is lost is lost for good.**  Take any state that an orderly run of two
connections leads to, with retransmissions left on both sides, and let everything that is in flight
be lost.  Then the owners can read, and the network deliver what is sent from now on, such that in
the end

* each side has been given all that the other's owner has written, and nothing is in flight;
* a stream that was ended by its owner has ended at the other side;
* if both streams were ended, neither connection is active. -/
theorem recovers {cfg : Side → TCPConfig}
    (hrecv : ∀ side, 0 < (cfg side).recvCapacity ∧ (cfg side).recvCapacity < 2 ^ 63)
    (hsend : ∀ side, (cfg side).sendCapacity < 2 ^ 64) {n : Network}
    (run : GuardedRun step Orderly (start cfg) n) (bounded : n.Bounded)
    (patient : ∀ side, (n side).Patient) :
    ∃ n', Recovers n n n' ∧
      (∀ side, (n' side.peer).written = (n side).accepted ∧
        (n' side).conn.sender.bytesInFlight = 0 ∧
        ((n side).conn.OutEnded →
          (n' side.peer).conn.receiver.streamOut.inputEnded = true)) ∧
      ((∀ side, (n side).conn.OutEnded) → ∀ side, (n' side).conn.active = false) := by
  have steady := steady_of_run (fun side => by have := hrecv side; omega) hsend run bounded
  have start : Underway cfg n n := ⟨steady, ahead_refl n, patient⟩
  obtain ⟨n₁, rounds, underway, settled⟩ := start.completes hrecv
  have delivered : ∀ side, (n₁ side.peer).written = (n side).accepted ∧
      (n₁ side).conn.sender.bytesInFlight = 0 ∧ ((n side).conn.OutEnded →
        (n₁ side.peer).conn.receiver.streamOut.inputEnded = true) := fun side => by
    obtain ⟨written, idle, ended⟩ := (underway.steady.linked side.peer_peer.symm).delivered
      (underway.steady.poised side) (settled side)
    exact ⟨written.trans (underway.ahead.accepted side), idle,
      fun out => ended (underway.ahead.ended side out)⟩
  by_cases both : ∀ side, (n side).conn.OutEnded
  · obtain ⟨n₂, ticks, closed⟩ :=
      underway.closes settled fun side => underway.ahead.ended side (both side)
    refine ⟨n₂, rounds.trans ticks, fun side => ?_, fun _ side => (closed side).1⟩
    obtain ⟨written, idle, ended⟩ := delivered side
    obtain ⟨-, written', receiver', -⟩ := closed side.peer
    exact ⟨written'.trans written, (closed side).2.2.2.trans idle, receiver' ▸ ended⟩
  · exact ⟨n₁, rounds, delivered, fun h => absurd h both⟩

/-- Each owner writes a byte and ends its stream, and nothing of it is delivered. -/
def stranded : List Op :=
  [.connect .a, .transmit .a, .deliver .b 0, .transmit .b, .deliver .a 0, .write .a [97],
    .write .b [98], .endInputStream .a, .endInputStream .b, .transmit .a, .transmit .b]

theorem recovers_stranded :
    ∃ n, execute step (start nearWrap) stranded = .ok n ∧ (∀ side, (n side).written = []) ∧
      ∃ n', Recovers n n n' ∧ (n' .b).written = [97] ∧ (n' .a).written = [98] ∧
        ∀ side, (n' side).conn.active = false := by
  obtain ⟨n, done, admitted, bounded, patient, empty, ended, toB, toA⟩ : ∃ n,
      execute step (start nearWrap) stranded = .ok n ∧
      Admitted step Orderly (start nearWrap) stranded ∧
      n.Bounded ∧ (∀ side, (n side).Patient) ∧ (∀ side, (n side).written = []) ∧
      (∀ side, (n side).conn.sender.stream.inputEnded = true) ∧
      (n .a).accepted = [97] ∧ (n .b).accepted = [98] :=
    EndsIn.exists_ok (by decide +kernel)
  have hrecv : ∀ side, 0 < (nearWrap side).recvCapacity ∧ (nearWrap side).recvCapacity < 2 ^ 63 := by
    decide
  have hsend : ∀ side, (nearWrap side).sendCapacity < 2 ^ 64 := by decide
  obtain ⟨n', recovered, delivered, closed⟩ :=
    recovers hrecv hsend (GuardedRun.of_execute admitted done) bounded patient
  exact ⟨n, done, empty, n', recovered, (delivered .a).1.trans toB, (delivered .b).1.trans toA,
    closed ended⟩

end Network

end Sponge
