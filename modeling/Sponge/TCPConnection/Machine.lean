import Sponge.TCPConnection.Lifecycle

/-!
# The official states of TCP

A connection has no state variable: `state()` is a product of what its sender and its
receiver look like and of two flags, and most products name no state of TCP.

* `official_state` — every state reached is one of the twelve official ones, **as long
  as** every operation is `Orderly`.
* `unofficial_state` — an acknowledgment without SYN, in SYN_SENT, is taken although the
  test suite expects it to be ignored; the connection then listens with its own SYN
  acknowledged, which is no state of TCP.

`Orderly` names the three ways out: bytes written after the FIN, an acknowledgment that
arrives before any SYN, and an inbound stream that ends before our SYN is acknowledged or
while our FIN still waits for room in the window.

Most of the argument is in terms of `_una_seqno`, because it only moves one way:
`_next_seqno = bytes_in_flight`, which is how the source tells SYN_SENT, is the same as
`_una_seqno = 0` once the SYN has a segment to itself (`synSent_iff`).

### Products that are no state

Sender, receiver, the activity bit and the lingering bit give dozens of products, and TCP
has twelve states.  The invariant `Regular` does not list the allowed ones.  It relates the
two halves by a few implications, each about one event: nothing is acknowledged before a SYN
was heard, a SYN that was heard was answered, an inbound stream ends only after our SYN was
acknowledged, and when it ends, our FIN is sent or lingering is switched off.
`Regular.official` is then a case split over what the summaries can be.

### The guard

`Orderly` is stated on a state and an operation, so it can be decided along a run.  It says
`EndsInbound` and not *has the FIN flag*, because the flag is neither necessary nor
sufficient: a FIN out of order ends nothing, and a segment without FIN may fill the last
gap.  After an error it asks for nothing, since the state is RESET and stays so.  Each
clause is needed: `disorderly` has a run for every one of them that ends outside the twelve
states.
-/

namespace Sponge

open Layouts Runs

namespace TCPSender

/-! ## The SYN -/

/-- The SYN shares its segment with nothing. -/
def SynApart (s : TCPSender) : Prop :=
  ∀ seg ∈ s.outstandingSegments, seg.header.syn = true → seg.lengthInSequenceSpace = 1

/-- A SYN is sent without a FIN if the stream is open or the window has no room. -/
theorem SynApart.filled {W : List UInt8} {s s' : TCPSender} {new : List TCPSegment}
    (h : SynApart s) (filled : Filled W s new s')
    (alone : s.nextSeqno = 0 → s.stream.inputIsEnd = false ∨ s'.nextSeqno ≤ 1) :
    SynApart s' := by
  intro seg hseg hsyn
  rw [filled.outstanding] at hseg
  rcases List.mem_append.mp hseg with hold | hnew
  · exact h seg hold hsyn
  · obtain ⟨a, hstart, hstop, hat⟩ := filled.placed.at_of_mem hnew
    have ha : a = 0 := hat.syn_iff.mp hsyn
    have hpayload : seg.payload = [] := hat.payload.resolve_right fun h => by omega
    have hlen : seg.lengthInSequenceSpace = 1 + if seg.header.fin then 1 else 0 := by
      rw [TCPSegment.lengthInSequenceSpace, hpayload, if_pos hsyn, List.length_nil, Nat.zero_add]
    rcases alone (by omega) with opened | small
    · have noFin : seg.header.fin = false := by
        refine Bool.eq_false_iff.mpr fun hfin => ?_
        have ended := (filled.finished ⟨seg, hnew, hfin⟩).1
        rw [filled.consumed.inputIsEnd, opened] at ended
        cases ended
      rw [hlen, noFin]
      rfl
    · omega

/-- **How the source tells SYN_SENT**: all that was sent is in flight exactly if nothing is
acknowledged.  A SYN that shared its segment could be acknowledged while the segment is still in
flight, and then the two would differ. -/
theorem Inv.synSent_iff {W : List UInt8} {s : TCPSender} (inv : Inv W s) (apart : SynApart s) :
    s.nextSeqno = s.bytesInFlight ↔ s.unaSeqno = 0 := by
  obtain ⟨first, placed, flight, una⟩ := inv.inFlight
  have hfirst : s.nextSeqno = s.bytesInFlight ↔ first = 0 := by omega
  rw [hfirst]
  cases hout : s.outstandingSegments with
  | nil =>
      rw [hout] at una
      exact ⟨fun h => una.trans h, fun h => una.symm.trans h⟩
  | cons seg rest =>
      rw [hout] at una placed
      obtain ⟨hle, hlt⟩ := una
      constructor
      · rintro rfl
        have hlen := apart seg (by rw [hout]; exact List.mem_cons_self) (placed.1.syn_iff.mpr rfl)
        omega
      · omega

/-- Either everything is acknowledged, and nothing is in flight, or something is not. -/
theorem Inv.una_cases {W : List UInt8} {s : TCPSender} (inv : Inv W s) :
    s.unaSeqno = s.nextSeqno ∧ s.bytesInFlight = 0 ∨ s.unaSeqno < s.nextSeqno := by
  obtain ⟨first, placed, flight, una⟩ := inv.inFlight
  cases hout : s.outstandingSegments with
  | nil =>
      rw [hout] at una placed
      have hfirst : first = s.nextSeqno := placed
      left
      exact ⟨una.trans hfirst, by omega⟩
  | cons seg rest =>
      rw [hout] at una placed
      right
      exact una.2.trans_le placed.2.le

/-- Once everything is acknowledged, nothing is in flight. -/
theorem Inv.idle_of_acked {W : List UInt8} {s : TCPSender} (inv : Inv W s)
    (acked : s.unaSeqno = s.nextSeqno) : s.bytesInFlight = 0 := by
  rcases inv.una_cases with ⟨-, idle⟩ | behind
  · exact idle
  · exact absurd acked behind.ne

/-- Nothing is acknowledged that was not sent. -/
theorem Inv.una_le_next {W : List UInt8} {s : TCPSender} (inv : Inv W s) :
    s.unaSeqno ≤ s.nextSeqno := by
  rcases inv.una_cases with ⟨acked, -⟩ | behind
  · exact acked.le
  · exact behind.le

/-- After the SYN, an empty buffer leaves nothing but the FIN to send. -/
theorem Filled.fin_of_empty {W : List UInt8} {s s' : TCPSender} {new : List TCPSegment}
    (filled : Filled W s new s') (sent : s.nextSeqno ≠ 0) (empty : s.stream.str = [])
    {seg : TCPSegment} (hseg : seg ∈ new) : seg.header.fin = true := by
  obtain ⟨a, hstart, -, hat⟩ := filled.placed.at_of_mem hseg
  have noSyn : seg.header.syn ≠ true := fun hsyn => by
    have := hat.syn_iff.mp hsyn
    omega
  have hstr := filled.consumed.str_eq
  rw [empty, eq_comm, List.append_eq_nil_iff, List.flatMap_eq_nil_iff] at hstr
  by_contra noFin
  have hlen := hat.occupied
  simp [TCPSegment.lengthInSequenceSpace, hstr.1 seg hseg, noSyn, noFin] at hlen

/-- With nothing in flight and nothing left to send, `fill_window` sends the FIN. -/
theorem Synced.fin_of_idle {W : List UInt8} {s : TCPSender} (h : Synced W s)
    (alone : s.SynAlone) (sent : s.nextSeqno ≠ 0) (idle : s.bytesInFlight = 0)
    (ended : s.stream.inputIsEnd = true) (empty : s.stream.str = []) :
    s.fillWindow.isTransmissionEnded = true := by
  obtain ⟨new, filled, -⟩ := h.fillWindow alone
  have closing := (h.exhausts alone).closing (filled.consumed.inputIsEnd.trans ended)
  rcases closing with inFlight | finSent
  · -- what is in flight was sent now, and there is nothing but the FIN to send
    cases new with
    | nil =>
        have hflight := filled.flight
        have hsame : s.nextSeqno = s.fillWindow.nextSeqno := filled.placed
        omega
    | cons seg rest =>
        rw [filled.ended, List.any_cons, filled.fin_of_empty sent empty List.mem_cons_self]
        simp
  · exact finSent

end TCPSender

namespace TCPConnection

open TCPSender

/-! ## Orderly operations -/

/-- The segment brings an acknowledgment that the sender accepts. -/
def Acknowledges (s : TCPSender) (seg : TCPSegment) : Prop :=
  seg.header.ack = true ∧ s.unaSeqno < unwrap seg.header.ackno s.isn s.nextSeqno ∧
    unwrap seg.header.ackno s.isn s.nextSeqno ≤ s.nextSeqno

instance (s : TCPSender) (seg : TCPSegment) : Decidable (Acknowledges s seg) :=
  inferInstanceAs (Decidable (_ ∧ _))

/-- Only an acknowledgment that is accepted moves `_una_seqno`. -/
theorem acknowledge_una_of_not {s : TCPSender} {seg : TCPSegment} (h : ¬Acknowledges s seg) :
    (acknowledge s seg).unaSeqno = s.unaSeqno := by
  unfold acknowledge
  split
  · next ack =>
    unfold ackReceived
    simp only
    rw [if_pos]
    by_contra acceptable
    rw [not_or, not_le, not_lt] at acceptable
    exact h ⟨ack, acceptable⟩
  · rfl

/-- And it moves it to where it points. -/
theorem Acknowledges.una {s : TCPSender} {seg : TCPSegment} (h : Acknowledges s seg) :
    (acknowledge s seg).unaSeqno = unwrap seg.header.ackno s.isn s.nextSeqno := by
  obtain ⟨ack, above, below⟩ := h
  unfold acknowledge ackReceived
  rw [if_pos ack]
  simp only
  rw [if_neg]
  rw [not_or, not_le, not_lt]
  exact ⟨above, below⟩

/-- The inbound stream ends with this segment.  A FIN alone says too little: it may be out
of order or past the window, and the stream may end with a segment that fills the last gap
in front of a FIN received earlier. -/
def EndsInbound (c : TCPConnection) (seg : TCPSegment) : Prop :=
  c.receiver.streamOut.inputEnded = false ∧
    EndsIn (c.receiver.segmentReceived seg) fun r => r.streamOut.inputEnded = true

instance (c : TCPConnection) (seg : TCPSegment) : Decidable (c.EndsInbound seg) :=
  inferInstanceAs (Decidable (_ ∧ _))

/-- The outbound FIN is not waiting for room in the window: the connection need not
linger, or there is more to send before the FIN, or it is sent, or this segment makes
room for it by acknowledging everything else. -/
def FinNotStuck (c : TCPConnection) (seg : TCPSegment) : Prop :=
  c.lingerAfterStreamsFinish = false ∨ c.sender.stream.eof = false ∨
    c.sender.isTransmissionEnded = true ∨
    (Acknowledges c.sender seg ∧
      unwrap seg.header.ackno c.sender.isn c.sender.nextSeqno = c.sender.nextSeqno)

instance (c : TCPConnection) (seg : TCPSegment) : Decidable (c.FinNotStuck seg) :=
  inferInstanceAs (Decidable (_ ∨ _))

/-- **Orderly operations** on a connection that is not reset.  Nothing is written once the
FIN is sent.  A segment that is neither a RST nor a keep-alive is accepted as an
acknowledgment only if a SYN is known; and if it ends the inbound stream, our SYN is
acknowledged, by then or by this very segment, and our FIN is not stuck.  A reset connection
is in the state RESET whatever is done to it. -/
def Orderly (c : TCPConnection) : Op → Prop
  | .write data =>
      c.sender.stream.error = false → c.sender.isTransmissionEnded = false ∨ data = []
  | .segment seg =>
      c.sender.stream.error = false → seg.header.rst = false → c.isKeepAlive seg = false →
      (c.receiver.isnAfter seg = none → ¬Acknowledges c.sender seg) ∧
      (c.EndsInbound seg →
        (c.sender.unaSeqno ≠ 0 ∨ Acknowledges c.sender seg) ∧ c.FinNotStuck seg)
  | .connect | .endInputStream | .tick _ | .read _ => True

instance decidableOrderly (c : TCPConnection) : ∀ op, Decidable (c.Orderly op)
  | .write _ => inferInstanceAs (Decidable (_ → _ ∨ _))
  | .segment _ => inferInstanceAs (Decidable (_ → _ → _ → _ ∧ _))
  | .connect | .endInputStream | .tick _ | .read _ => inferInstanceAs (Decidable True)

theorem Orderly.writesBeforeFin {c : TCPConnection} {op : Op} (h : c.Orderly op)
    (noError : c.sender.stream.error = false) : c.WritesBeforeFin op := by
  cases op with
  | write data => exact h noError
  | connect => trivial
  | endInputStream => trivial
  | tick ms => trivial
  | read len => trivial
  | segment seg => trivial

/-! ## The invariant -/

/-- How far the two halves of the connection may be apart.  The sender and the receiver know
nothing of each other, so many pairs of their states are not states of TCP; this is what excludes
these pairs. -/
structure Regular (c : TCPConnection) : Prop where
  drained : Drained c.sender
  apart : SynApart c.sender
  unsent : c.sender.nextSeqno = 0 → c.sender.stream.inputIsEnd = false
  /-- Until a SYN arrives, nothing is acknowledged. -/
  unheard : c.receiver.isn = none →
    c.lingerAfterStreamsFinish = true ∧ c.sender.unaSeqno = 0
  /-- A SYN is answered with a SYN. -/
  heard : c.receiver.isn ≠ none → c.sender.nextSeqno ≠ 0
  lingers : c.receiver.streamOut.inputEnded = false → c.lingerAfterStreamsFinish = true
  /-- When the inbound stream ends our SYN is acknowledged, and our FIN is sent unless the
  connection need not linger. -/
  ended : c.receiver.streamOut.inputEnded = true → c.sender.unaSeqno ≠ 0 ∧
    (c.lingerAfterStreamsFinish = false ∨ c.sender.isTransmissionEnded = true)

/-- A new connection has heard and sent nothing. -/
theorem regular_new (cfg : TCPConfig) : Regular (new cfg) where
  drained := by
    intro ended
    cases ended
  apart := by
    intro seg hseg
    cases hseg
  unsent := fun _ => rfl
  unheard := fun _ => ⟨rfl, rfl⟩
  heard := fun hisn => absurd rfl hisn
  lingers := fun _ => rfl
  ended := by
    intro ended
    cases ended

/-- An operation that brings nothing from the network.  What it leaves alone is what `Regular`
relates to the inbound half, so the operations other than a segment need one argument between
them. -/
structure Quiet (c c' : TCPConnection) : Prop where
  isn : c'.receiver.isn = c.receiver.isn
  inEnded : c'.receiver.streamOut.inputEnded = c.receiver.streamOut.inputEnded
  linger : c'.lingerAfterStreamsFinish = c.lingerAfterStreamsFinish
  una : c'.sender.unaSeqno = c.sender.unaSeqno
  next_le : c.sender.nextSeqno ≤ c'.sender.nextSeqno
  fin : c.sender.isTransmissionEnded = true → c'.sender.isTransmissionEnded = true

/-- An operation of the owner keeps the relation between the halves, which it does not touch. -/
theorem Regular.quiet {c c' : TCPConnection} (h : Regular c) (quiet : Quiet c c')
    (drained : Drained c'.sender) (apart : SynApart c'.sender)
    (unsent : c'.sender.nextSeqno = 0 → c'.sender.stream.inputIsEnd = false) : Regular c' where
  drained := drained
  apart := apart
  unsent := unsent
  unheard := by
    rw [quiet.isn, quiet.linger, quiet.una]
    exact h.unheard
  heard := by
    rw [quiet.isn]
    intro hisn
    have := h.heard hisn
    have := quiet.next_le
    omega
  lingers := by
    rw [quiet.inEnded, quiet.linger]
    exact h.lingers
  ended := by
    rw [quiet.inEnded, quiet.linger, quiet.una]
    intro ended
    exact (h.ended ended).imp_right fun hfin => hfin.imp_right quiet.fin

theorem Regular.sendAll {c : TCPConnection} (h : Regular c) :
    Regular c.sendAllOutboundingSegments :=
  ⟨h.drained, h.apart, h.unsent, h.unheard, h.heard, h.lingers, h.ended⟩

/-- The window is one until the SYN is sent, so the first fill sends nothing else. -/
theorem Outbound.first_fill {W V : List UInt8} {c : TCPConnection} (h : Outbound W c)
    {stream : ByteStream} (synced : Synced V { c.sender with stream := stream })
    (unsent : c.sender.nextSeqno = 0) :
    { c.sender with stream := stream }.fillWindow.nextSeqno ≤ 1 := by
  obtain ⟨new, filled, fits, -⟩ := synced.fillWindow (h.synAlone _)
  obtain ⟨first, -, flight, -⟩ := h.sound.inv.inFlight
  have hwindow : actualWindowSize { c.sender with stream := stream } = 1 := by
    rw [actualWindowSize, (h.unsent unsent).1]
    rfl
  have hflight := filled.flight
  rw [hwindow] at fits
  simp only at fits hflight ⊢
  omega

/-- Once the owner has filled the window, the SYN is sent. -/
theorem Outbound.sent_fill {W V : List UInt8} {c : TCPConnection} (h : Outbound W c)
    {stream : ByteStream} (synced : Synced V { c.sender with stream := stream }) :
    { c.sender with stream := stream }.fillWindow.nextSeqno ≠ 0 := by
  obtain ⟨new, filled, -, sent⟩ := synced.fillWindow (h.synAlone _)
  obtain ⟨first, -, flight, -⟩ := h.sound.inv.inFlight
  intro unsent
  have hle : c.sender.nextSeqno ≤ { c.sender with stream := stream }.fillWindow.nextSeqno :=
    filled.placed.le
  exact sent (show c.sender.bytesInFlight = 0 by omega) unsent

/-- The SYN that the owner sends is alone in its segment. -/
theorem Outbound.synApart_fill {W V : List UInt8} {c : TCPConnection} (h : Outbound W c)
    {stream : ByteStream} (synced : Synced V { c.sender with stream := stream })
    (apart : SynApart c.sender) : SynApart { c.sender with stream := stream }.fillWindow := by
  obtain ⟨new, filled, -⟩ := synced.fillWindow (h.synAlone _)
  have apart' : SynApart { c.sender with stream := stream } := apart
  exact apart'.filled filled fun unsent => Or.inr (h.first_fill synced unsent)

/-- The owner fills the window. -/
theorem Regular.fill {W : List UInt8} {c : TCPConnection} (h : Regular c)
    (outbound : Outbound W c) {op : Op} {stream : ByteStream} (before : c.WritesBeforeFin op)
    (restocked : c.Restocked op stream) :
    Regular { c with sender := { c.sender with stream := stream }.fillWindow } := by
  have synced := outbound.restocked restocked
  have alone := outbound.synAlone stream
  obtain ⟨new, filled, -⟩ := synced.fillWindow alone
  have quiet : Quiet c { c with sender := { c.sender with stream := stream }.fillWindow } := by
    refine ⟨rfl, rfl, rfl, ?_, filled.placed.le, fun finSent => ?_⟩
    · show { c.sender with stream := stream }.fillWindow.unaSeqno = _
      rw [filled.frame]
    · show { c.sender with stream := stream }.fillWindow.isTransmissionEnded = true
      rw [filled.ended, show c.sender.isTransmissionEnded = true from finSent, Bool.true_or]
  exact h.quiet quiet ((h.drained.restocked before restocked).fillWindow synced alone)
    (outbound.synApart_fill synced h.apart) fun unsent =>
      absurd unsent (outbound.sent_fill synced)

/-! ## A segment -/

/-- An answer changes the flag before it sends anything. -/
theorem respond_linger (c : TCPConnection) (seg : TCPSegment) :
    (c.respond seg).lingerAfterStreamsFinish =
      if c.receiver.streamOut.inputEnded && !c.sender.stream.eof then false
      else c.lingerAfterStreamsFinish := by
  have stream : (acknowledge c.sender seg).stream = c.sender.stream := by
    rw [(acknowledge_effect c.sender seg).2]
  rw [← stream]
  exact respond_rule (P := fun c' => c'.lingerAfterStreamsFinish = ite _ _ _) rfl
    (fun _ h => h) fun _ h => h

/-- What a segment does to the sender. -/
structure Answered (c : TCPConnection) (seg : TCPSegment) (s : TCPSender) : Prop where
  drained : Drained s
  apart : SynApart s
  sent : s.nextSeqno ≠ 0
  una : s.unaSeqno = (acknowledge c.sender seg).unaSeqno
  una_le : c.sender.unaSeqno ≤ s.unaSeqno
  fin : c.sender.isTransmissionEnded = true → s.isTransmissionEnded = true
  /-- If everything is acknowledged and nothing is left to send, the FIN is sent. -/
  finSent : (acknowledge c.sender seg).unaSeqno = c.sender.nextSeqno →
    c.sender.nextSeqno ≠ 0 → c.sender.stream.eof = true → s.isTransmissionEnded = true

/-- A SYN in answer to a segment goes without a FIN: the stream is still open. -/
theorem Outbound.synApart_acknowledge {W : List UInt8} {c : TCPConnection} (h : Outbound W c)
    (apart : SynApart c.sender)
    (opened : c.sender.nextSeqno = 0 → c.sender.stream.inputIsEnd = false) (seg : TCPSegment) :
    SynApart (acknowledge c.sender seg).fillWindow := by
  obtain ⟨popped, frame⟩ := acknowledge_effect c.sender seg
  obtain ⟨new, filled, -⟩ := (h.synced_acknowledge seg).fillWindow (h.synAlone_acknowledge seg)
  have apart' : SynApart (acknowledge c.sender seg) :=
    fun x hx => apart x (popped.subset hx)
  refine apart'.filled filled fun unsent => Or.inl ?_
  rw [frame] at unsent ⊢
  exact opened unsent

/-- What `segment_received` does to the sender, put together. -/
theorem Regular.answered {W : List UInt8} {c : TCPConnection} (h : Regular c)
    (outbound : Outbound W c) (hnext : c.sender.nextSeqno < 2 ^ 64) (seg : TCPSegment) :
    Answered c seg (acknowledge c.sender seg).fillWindow := by
  obtain ⟨-, frame⟩ := acknowledge_effect c.sender seg
  obtain ⟨sound, adv, -⟩ := outbound.acknowledged hnext seg
  have alone := outbound.synAlone_acknowledge seg
  have synced := outbound.synced_acknowledge seg
  have next : (acknowledge c.sender seg).nextSeqno = c.sender.nextSeqno := by rw [frame]
  have stream : (acknowledge c.sender seg).stream = c.sender.stream := by rw [frame]
  have drained : Drained (acknowledge c.sender seg) := by
    rw [frame]
    exact h.drained
  obtain ⟨new, filled, -, sent⟩ := sound.inv.fillWindow alone
  have una : (acknowledge c.sender seg).fillWindow.unaSeqno
      = (acknowledge c.sender seg).unaSeqno := by rw [filled.frame]
  refine ⟨drained.fillWindow synced alone, outbound.synApart_acknowledge h.apart h.unsent seg,
    sent, una, ?_, fun finSent => ?_, fun acked open' eof => ?_⟩
  · rw [una]
    exact adv.una_le
  · rw [filled.ended, (adv.frozen finSent).1, Bool.true_or]
  · obtain ⟨ended, empty⟩ := outbound.sound.inv.buffers.inv.eof_iff.mp eof
    refine synced.fin_of_idle alone (next ▸ open') ?_ (stream ▸ ended) (stream ▸ empty)
    exact sound.inv.idle_of_acked (acked.trans next.symm)

/-- The inbound stream has ended, with this segment or before. -/
theorem Regular.inEnded {c : TCPConnection} (h : Regular c) {seg : TCPSegment} {s : TCPSender}
    (answered : Answered c seg s) {receiver : TCPReceiver}
    (received : c.receiver.segmentReceived seg = .ok receiver)
    (ends : c.EndsInbound seg →
      (c.sender.unaSeqno ≠ 0 ∨ Acknowledges c.sender seg) ∧ c.FinNotStuck seg)
    (ended : receiver.streamOut.inputEnded = true) :
    s.unaSeqno ≠ 0 ∧ ((c.lingerAfterStreamsFinish && c.sender.stream.eof) = false ∨
      s.isTransmissionEnded = true) := by
  have advanced : c.sender.unaSeqno ≠ 0 → s.unaSeqno ≠ 0 := by
    have := answered.una_le
    omega
  cases before : c.receiver.streamOut.inputEnded with
  | true =>
      obtain ⟨huna, hfin⟩ := h.ended before
      refine ⟨advanced huna, hfin.imp (fun hlinger => ?_) answered.fin⟩
      rw [hlinger, Bool.false_and]
  | false =>
      -- the stream ends with this segment, which is where its orderliness is used
      obtain ⟨huna, stuck⟩ := ends ⟨before, by rw [received]; exact ended⟩
      refine ⟨?_, ?_⟩
      · rcases huna with huna | acks
        · exact advanced huna
        · rw [answered.una, acks.una]
          exact Nat.ne_zero_of_lt acks.2.1
      · rcases stuck with hlinger | more | finSent | ⟨acks, all⟩
        · exact Or.inl (by rw [hlinger, Bool.false_and])
        · exact Or.inl (by rw [more, Bool.and_false])
        · exact Or.inr (answered.fin finSent)
        · cases heof : c.sender.stream.eof with
          | false => exact Or.inl (Bool.and_false _)
          | true =>
              have hsent : c.sender.nextSeqno ≠ 0 := by
                have := acks.2.1
                omega
              exact Or.inr (answered.finSent (acks.una.trans all) hsent heof)

/-- **A segment keeps the connection regular**, if it is orderly. -/
theorem Regular.received {W : List UInt8} {c : TCPConnection} (h : Regular c)
    (outbound : Outbound W c) (hnext : c.sender.nextSeqno < 2 ^ 64) (heard : Heard c.receiver)
    {seg : TCPSegment} {receiver : TCPReceiver}
    (received : c.receiver.segmentReceived seg = .ok receiver)
    (unheard : c.receiver.isnAfter seg = none → ¬Acknowledges c.sender seg)
    (ends : c.EndsInbound seg →
      (c.sender.unaSeqno ≠ 0 ∨ Acknowledges c.sender seg) ∧ c.FinNotStuck seg) :
    Regular ({ c with timeSinceLastSegReceived := 0, receiver := receiver }.respond seg) := by
  have answered := h.answered outbound hnext seg
  have hisn := (TCPReceiver.segmentReceived_cases received).1
  have heard' : Heard receiver := heard.segmentReceived received
  have linger := respond_linger { c with timeSinceLastSegReceived := 0, receiver := receiver } seg
  have notEnded : receiver.streamOut.inputEnded = false →
      (respond { c with timeSinceLastSegReceived := 0, receiver := receiver } seg
        ).lingerAfterStreamsFinish = c.lingerAfterStreamsFinish := by
    intro hopen
    rw [linger]
    simp only [hopen, Bool.false_and, Bool.false_eq_true, if_false]
  refine ⟨?_, ?_, ?_, ?_, ?_, ?_, ?_⟩
  · rw [respond_sender]
    exact answered.drained
  · rw [respond_sender]
    exact answered.apart
  · rw [respond_sender]
    exact fun unsent => absurd unsent answered.sent
  · rw [respond_receiver, respond_sender]
    -- without a SYN nothing has arrived, and an orderly segment acknowledges nothing then
    intro hnone
    have hopen : receiver.streamOut.inputEnded = false :=
      Bool.eq_false_iff.mpr fun ended => heard' ended hnone
    have hafter : c.receiver.isnAfter seg = none := hisn ▸ hnone
    have hbefore : c.receiver.isn = none := by
      unfold TCPReceiver.isnAfter at hafter
      split at hafter
      · cases hafter
      · exact hafter
    obtain ⟨hlinger, huna⟩ := h.unheard hbefore
    refine ⟨(notEnded hopen).trans hlinger, ?_⟩
    show (acknowledge c.sender seg).fillWindow.unaSeqno = 0
    rw [answered.una, acknowledge_una_of_not (unheard hafter), huna]
  · rw [respond_sender]
    exact fun _ => answered.sent
  · rw [respond_receiver]
    intro hopen
    rw [notEnded hopen]
    refine h.lingers (Bool.eq_false_iff.mpr fun ended => ?_)
    have := (TCPReceiver.segmentReceived_grown received).ended ended
    rw [show receiver.reassembler.output.inputEnded = false from hopen] at this
    cases this
  · rw [respond_receiver, respond_sender]
    intro ended
    -- whether to linger is decided on the stream as it was before the window is filled
    obtain ⟨huna, hfin⟩ := h.inEnded answered received ends ended
    refine ⟨huna, hfin.imp_left fun hlinger => ?_⟩
    rw [linger]
    simp only [ended, Bool.true_and]
    cases heof : c.sender.stream.eof with
    | false => rfl
    | true => simpa [heof] using hlinger

/-- **An orderly step keeps the connection regular.** -/
theorem Regular.step {W : List UInt8} {c c' : TCPConnection} {op : Op} (h : Regular c)
    (outbound : Outbound W c) (hnext : c.sender.nextSeqno < 2 ^ 64) (heard : Heard c.receiver)
    (noError : c.sender.stream.error = false) (orderly : c.Orderly op)
    (outcome : Outcome c op c') : Regular c' := by
  cases outcome with
  | filled restocked => exact h.fill outbound (orderly.writesBeforeFin noError) restocked
  | flushed restocked =>
      exact (h.fill outbound (orderly.writesBeforeFin noError) restocked).sendAll
  | ticked ms retries =>
      obtain ⟨-, -, -, frame⟩ := c.sender.tick_effect ms
      refine Regular.sendAll ⟨?_, ?_, ?_, ?_, ?_, h.lingers, ?_⟩ <;> simp only <;> rw [frame]
      · exact h.drained
      · exact h.apart
      · exact h.unsent
      · exact h.unheard
      · exact h.heard
      · exact h.ended
  | read len => exact ⟨h.drained, h.apart, h.unsent, h.unheard, h.heard, h.lingers, h.ended⟩
  | keptAlive alive =>
      exact ⟨h.drained, h.apart, h.unsent, h.unheard, h.heard, h.lingers, h.ended⟩
  | dropped noSyn listen =>
      exact ⟨h.drained, h.apart, h.unsent, h.unheard, h.heard, h.lingers, h.ended⟩
  | answered noRst notAlive received =>
      obtain ⟨unheard, ends⟩ := orderly noError noRst notAlive
      exact h.received outbound hnext heard received unheard ends

/-! ## The twelve states -/

/-- What the summary of the sender says, in terms of what it has sent and what is
acknowledged. -/
theorem senderSummary_eq {W : List UInt8} {s : TCPSender} (inv : Inv W s) (apart : SynApart s)
    (drained : Drained s) (noError : s.stream.error = false) :
    TCPState.senderSummary s =
      if s.nextSeqno = 0 then .closed
      else if s.unaSeqno = 0 then .synSent
      else if s.isTransmissionEnded = false then .synAcked
      else if s.bytesInFlight ≠ 0 then .finSent
      else .finAcked := by
  unfold TCPState.senderSummary
  rw [noError, if_neg Bool.false_ne_true]
  by_cases unsent : s.nextSeqno = 0
  · rw [if_pos unsent, if_pos unsent]
  rw [if_neg unsent, if_neg unsent]
  simp only [inv.synSent_iff apart]
  by_cases synSent : s.unaSeqno = 0
  · rw [if_pos synSent, if_pos synSent]
  rw [if_neg synSent, if_neg synSent]
  have hnext := inv.positioned.sent unsent
  have hwritten := inv.buffers.inv.balance
  cases ended : s.isTransmissionEnded with
  | false =>
      rw [ended, if_neg Bool.false_ne_true] at hnext
      rw [if_pos rfl]
      cases heof : s.stream.eof with
      | false => rfl
      | true =>
          -- the stream is drained, and one number is left for the FIN
          rw [if_neg (by simp), if_pos (by omega)]
  | true =>
      have heof : s.stream.eof = true :=
        inv.buffers.inv.eof_iff.mpr ⟨inv.closed ended, drained ended⟩
      rw [drained ended, List.length_nil] at hwritten
      rw [ended, if_pos rfl] at hnext
      rw [heof, if_neg (by simp), if_neg (by omega)]
      rfl

/-- What the summary of the receiver says. -/
theorem receiverSummary_eq {r : TCPReceiver} (noError : r.streamOut.error = false) :
    TCPState.receiverSummary r =
      if r.isn = none then .listen
      else if r.streamOut.inputEnded = true then .finRecv
      else .synRecv := by
  unfold TCPState.receiverSummary TCPReceiver.ackno
  rw [noError, if_neg Bool.false_ne_true]
  cases r.isn with
  | none => rfl
  | some isn => rfl

/-- A connection is only inactive with both streams ended and nothing in flight. -/
theorem active_of_busy {c : TCPConnection}
    (noErrors : c.sender.stream.error = false ∧ c.receiver.streamOut.error = false)
    (busy : ¬(c.sender.bytesInFlight = 0 ∧ c.sender.stream.inputEnded = true ∧
      c.receiver.streamOut.inputEnded = true)) : c.active = true := by
  by_contra inactive
  exact busy ((inactive_iff noErrors).mp (Bool.eq_false_iff.mpr inactive)).2

section Official

variable {c : TCPConnection} (h : Regular c) (tracked : Tracked c)
  (noError : c.sender.stream.error = false)
include h tracked noError

/-- What the state is made of. -/
theorem Regular.state_eq :
    c.state =
      ⟨if c.sender.nextSeqno = 0 then .closed
        else if c.sender.unaSeqno = 0 then .synSent
        else if c.sender.isTransmissionEnded = false then .synAcked
        else if c.sender.bytesInFlight ≠ 0 then .finSent
        else .finAcked,
      if c.receiver.isn = none then .listen
        else if c.receiver.streamOut.inputEnded = true then .finRecv
        else .synRecv,
      c.active, if c.active then c.lingerAfterStreamsFinish else false⟩ := by
  obtain ⟨W, outbound⟩ := tracked.outbound
  rw [← senderSummary_eq outbound.sound.inv h.apart h.drained noError,
    ← receiverSummary_eq (tracked.noErrors noError).2]
  rfl

/-- Until a SYN arrives, the connection is in LISTEN or in SYN_SENT. -/
theorem Regular.official_unheard (unheard : c.receiver.isn = none) :
    ∃ s, c.state = TCPState.ofState s := by
  have noErrors := tracked.noErrors noError
  have hopen : c.receiver.streamOut.inputEnded ≠ true := fun ended => tracked.heard ended unheard
  obtain ⟨linger, una⟩ := h.unheard unheard
  rw [h.state_eq tracked noError, if_pos unheard,
    active_of_busy noErrors fun closed => hopen closed.2.2, linger, una]
  by_cases unsent : c.sender.nextSeqno = 0
  · rw [if_pos unsent]
    exact ⟨.listen, rfl⟩
  · rw [if_neg unsent]
    exact ⟨.synSent, rfl⟩

/-- While the peer sends, it is in SYN_RCVD, ESTABLISHED, FIN_WAIT_1 or FIN_WAIT_2. -/
theorem Regular.official_receiving (heard : c.receiver.isn ≠ none)
    (receiving : c.receiver.streamOut.inputEnded = false) :
    ∃ s, c.state = TCPState.ofState s := by
  have noErrors := tracked.noErrors noError
  rw [h.state_eq tracked noError, if_neg heard, if_neg (h.heard heard), receiving,
    active_of_busy noErrors (by simp [receiving]), h.lingers receiving]
  by_cases synSent : c.sender.unaSeqno = 0
  · rw [if_pos synSent]
    exact ⟨.synRcvd, rfl⟩
  rw [if_neg synSent]
  cases c.sender.isTransmissionEnded with
  | false => exact ⟨.established, rfl⟩
  | true =>
      by_cases idle : c.sender.bytesInFlight = 0
      · rw [idle]
        exact ⟨.finWait2, rfl⟩
      · rw [if_pos idle]
        exact ⟨.finWait1, rfl⟩

/-- When the peer has finished first, it is in CLOSE_WAIT until the FIN is sent. -/
theorem Regular.official_unfinished (heard : c.receiver.isn ≠ none)
    (ended : c.receiver.streamOut.inputEnded = true)
    (unfinished : c.sender.isTransmissionEnded = false) :
    ∃ s, c.state = TCPState.ofState s := by
  have noErrors := tracked.noErrors noError
  obtain ⟨acked, sentOrNot⟩ := h.ended ended
  have linger : c.lingerAfterStreamsFinish = false :=
    sentOrNot.resolve_right (by simp [unfinished])
  have busy : ¬(c.sender.bytesInFlight = 0 ∧ c.sender.stream.inputEnded = true ∧
      c.receiver.streamOut.inputEnded = true) := by
    rintro ⟨idle, outEnded, -⟩
    rcases (tracked.live noError).closing outEnded with inFlight | sent
    · exact inFlight idle
    · rw [unfinished] at sent
      cases sent
  rw [h.state_eq tracked noError, if_neg heard, if_neg (h.heard heard), ended, if_neg acked,
    unfinished, active_of_busy noErrors busy, linger]
  exact ⟨.closeWait, rfl⟩

/-- When both have finished, it is in CLOSING, LAST_ACK, TIME_WAIT or CLOSED. -/
theorem Regular.official_finished (heard : c.receiver.isn ≠ none)
    (ended : c.receiver.streamOut.inputEnded = true)
    (finished : c.sender.isTransmissionEnded = true) :
    ∃ s, c.state = TCPState.ofState s := by
  obtain ⟨W, outbound⟩ := tracked.outbound
  have noErrors := tracked.noErrors noError
  rw [h.state_eq tracked noError, if_neg heard, if_neg (h.heard heard), ended,
    if_neg (h.ended ended).1, finished]
  by_cases idle : c.sender.bytesInFlight = 0
  · rw [idle]
    cases active : c.active with
    | false => exact ⟨.closed, rfl⟩
    | true =>
        -- without the linger it would be inactive
        have linger : c.lingerAfterStreamsFinish = true := by
          by_contra noLinger
          have inactive := (inactive_iff noErrors).mpr
            ⟨Or.inl (Bool.eq_false_iff.mpr noLinger), idle,
              outbound.sound.inv.closed finished, ended⟩
          rw [active] at inactive
          cases inactive
        rw [linger]
        exact ⟨.timeWait, rfl⟩
  · rw [if_pos idle, active_of_busy noErrors fun closed => idle closed.1]
    cases c.lingerAfterStreamsFinish with
    | false => exact ⟨.lastAck, rfl⟩
    | true => exact ⟨.closing, rfl⟩

/-- **A regular connection is in an official state.**  The cases are those of the inbound half
first, and then of the outbound one, as in the state diagram of TCP. -/
theorem Regular.official : ∃ s, c.state = TCPState.ofState s := by
  by_cases heard : c.receiver.isn = none
  · exact h.official_unheard tracked noError heard
  cases ended : c.receiver.streamOut.inputEnded with
  | false => exact h.official_receiving tracked noError heard ended
  | true =>
      cases finished : c.sender.isTransmissionEnded with
      | false => exact h.official_unfinished tracked noError heard ended finished
      | true => exact h.official_finished tracked noError heard ended finished

end Official

/-- After an error the connection is in RESET, whatever else it has. -/
theorem reset_state {c : TCPConnection}
    (error : c.sender.stream.error = true ∧ c.receiver.streamOut.error = true) :
    c.state = TCPState.ofState .reset := by
  simp [state, active, TCPState.ofParts, TCPState.senderSummary, TCPState.receiverSummary,
    TCPState.ofState, error]

/-- **The connection stays inside the state machine of TCP**, in every run whose
operations are all orderly. -/
theorem official_state {cfg : TCPConfig} (hcap : cfg.sendCapacity < 2 ^ 64) {c : TCPConnection}
    (run : GuardedRun step (fun c op => c.sender.nextSeqno < 2 ^ 64 ∧ c.Orderly op)
      (new cfg) c) : ∃ s, c.state = TCPState.ofState s := by
  obtain ⟨tracked, regular⟩ : Tracked c ∧ (c.sender.stream.error = false → Regular c) := by
    refine run.invariant (fun c => Tracked c ∧ (c.sender.stream.error = false → Regular c))
      ⟨tracked_new hcap, fun _ => regular_new cfg⟩ ?_
    rintro c op c' ⟨tracked, regular⟩ ⟨hnext, orderly⟩ stepped
    refine ⟨tracked.step hnext stepped, fun noError => ?_⟩
    obtain ⟨W, outbound⟩ := tracked.outbound
    have before := noError_of_step stepped noError
    exact (regular before).step outbound hnext tracked.heard before orderly
      (outcome_of_step stepped noError)
  cases error : c.sender.stream.error with
  | false => exact (regular error).official tracked error
  | true => exact ⟨.reset, reset_state ⟨error, tracked.errors ▸ error⟩⟩

theorem official_state_passiveClose :
    ∃ c, execute step (new { fixedIsn := ⟨0⟩ }) passiveClose = .ok c ∧
      ∃ s, c.state = TCPState.ofState s := by
  obtain ⟨c, done, admitted⟩ : ∃ c, execute step (new { fixedIsn := ⟨0⟩ }) passiveClose = .ok c ∧
      Admitted step (fun c op => c.sender.nextSeqno < 2 ^ 64 ∧ c.Orderly op)
        (new { fixedIsn := ⟨0⟩ }) passiveClose :=
    EndsIn.exists_ok (by decide +kernel)
  have hcap : 64000 < 2 ^ 64 := by decide
  exact ⟨c, done, official_state hcap (GuardedRun.of_execute admitted done)⟩

/-- The peer accepts the connection, with the given window. -/
def accepted (win : UInt16) : Op :=
  .segment { header :=
    { seqno := ⟨100⟩, syn := true, ack := true, ackno := ⟨1⟩, win := win } }

/-- Runs that leave the state machine, with the state each ends in: an acknowledgment
arrives before any SYN; the inbound stream ends before our SYN is acknowledged; it ends
while our FIN waits for room; bytes are written after the FIN. -/
def disorderly : List (List Op × TCPState) :=
  [([.connect, .segment { header := { ack := true, ackno := ⟨1⟩, win := 1000 } }],
      { sender := .synAcked, receiver := .listen }),
    ([.segment { header := { syn := true, fin := true } }],
      { sender := .synSent, receiver := .finRecv, lingerAfterStreamsFinish := false }),
    ([.connect, accepted 1, .write [1], .endInputStream,
        .segment { header :=
          { seqno := ⟨101⟩, fin := true, ack := true, ackno := ⟨1⟩, win := 1 } }],
      { sender := .synAcked, receiver := .finRecv }),
    ([.connect, accepted 1000, .endInputStream, .write [1],
        .segment { header :=
          { seqno := ⟨101⟩, fin := true, ack := true, ackno := ⟨2⟩, win := 1000 } }],
      { sender := .synAcked, receiver := .finRecv, active := false,
        lingerAfterStreamsFinish := false })]

/-- Each of them ends in a state that is none of TCP's. -/
theorem disorderly_unofficial :
    ∀ p ∈ disorderly, ∃ c, execute step (new { fixedIsn := ⟨0⟩ }) p.1 = .ok c ∧ c.state = p.2 ∧
      ∀ s, c.state ≠ TCPState.ofState s := by
  have reached : ∀ p ∈ disorderly,
      EndsIn (execute step (new { fixedIsn := ⟨0⟩ }) p.1) (fun c => c.state = p.2) := by
    decide +kernel
  have unofficial : ∀ p ∈ disorderly, ∀ s, p.2 ≠ TCPState.ofState s := by
    intro p hp s
    revert p
    cases s <;> decide
  intro p hp
  obtain ⟨c, done, hstate⟩ := (reached p hp).exists_ok
  exact ⟨c, done, hstate, fun s => hstate ▸ unofficial p hp s⟩

/-- **A connection can leave the state machine of TCP**: an acknowledgment in SYN_SENT that
carries no SYN is enough.  The sender takes it, while the receiver is still in LISTEN. -/
theorem unofficial_state :
    ∃ c, execute step (new { fixedIsn := ⟨0⟩ })
        [.connect, .segment { header := { ack := true, ackno := ⟨1⟩, win := 1000 } }] = .ok c ∧
      c.state = { sender := .synAcked, receiver := .listen } ∧
      ∀ s, c.state ≠ TCPState.ofState s :=
  disorderly_unofficial _ List.mem_cons_self

end TCPConnection

end Sponge
