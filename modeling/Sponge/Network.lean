import Mathlib.Logic.Function.Basic
import Sponge.Side
import Sponge.TCPConnection.Inbound
import Sponge.TCPConnection.Outbound

/-!
# Two endpoints and a network between them

Two connections, `a` and `b`, and everything either has ever put on the network.
Their owners call `connect`, `write`, `end_input_stream`, `tick` and read the
inbound stream in any order; the network delivers any segment ever sent to the
other side, any number of times, in any order, or never.

The argument is one invariant with two halves for each direction.  `Outgoing`:
everything a host has sent is genuine, that is, carries the bytes of its stream at
their place.  `Incoming`: what the peer has assembled, stored and read agrees with
that stream.  A genuine segment unwraps to its place at the receiver, so delivering
it keeps the second half; the first half only grows.

`prefix_safety` is the result: whatever the schedule, what one side's application
can read is a prefix of what the other side's application wrote.

### The network keeps everything

`wire` is never emptied.  A delivery names a segment by its position among all that its side
has ever sent, so loss is a delivery that does not happen, repetition one that happens
twice, and delay needs no clock.  What the network may not do is change a segment or make
one up.  The checksum that guards against changes is the subject of `TCPSegment.Wire`.

### What the bound is for

Sequence numbers on the wire are 32 bits wide, and a segment may be arbitrarily old.  With
fewer than `2 ^ 31 - 2` bytes in each direction every number ever sent is within half a turn
of every checkpoint it can meet, so it unwraps to its place (`Carried.streamIndex_eq`).  The
bound is asked of the last state only: what has been accepted does not get less, so it held
before (`Bounded.before`).

### Reading `Reception`

All later invariants of the receiving side start from the same question: what can an
operation do to the inbound stream?  `Fed.reception` answers it once, with four cases, and
the modules under `Network` only ever split on these.
-/

namespace Sponge

open Runs

/-- A connection and the history of its use.  The connection alone says what will happen next; the
history is what the results are about, and no connection reads it. -/
structure Host where
  conn : TCPConnection
  /-- The bytes accepted by `write`. -/
  accepted : List UInt8 := []
  /-- The bytes read from the inbound stream. -/
  popped : List UInt8 := []
  /-- The segments taken off the outbound queue and put on the network. -/
  wire : List TCPSegment := []
  /-- The segments that have left the queue of outstanding ones. -/
  removed : List TCPSegment := []
  deriving Repr, DecidableEq

namespace Host

/-- A host that has done nothing. -/
def new (cfg : TCPConfig) : Host := { conn := TCPConnection.new cfg }

/-- Every byte ever written into the inbound stream, in order. -/
def written (h : Host) : List UInt8 := h.popped ++ h.conn.receiver.streamOut.str

/-- The bytes an operation takes from the inbound stream. -/
def poppedBy (h : Host) : TCPConnection.Op → List UInt8
  | .read len => (h.conn.readInbound len).1
  | _ => []

/-- One operation of the connection. -/
def act (h : Host) (op : TCPConnection.Op) : Except Fault Host :=
  match h.conn.step op with
  | .error fault => .error fault
  | .ok conn => .ok
      { conn := conn
        accepted := h.accepted ++ h.conn.acceptedBy op
        popped := h.popped ++ h.poppedBy op
        wire := h.wire
        removed := h.removed ++ h.conn.sender.outstandingSegments.filter
          fun seg => seg ∉ conn.sender.outstandingSegments }

/-- The segment at the front of the outbound queue goes on the network. -/
def transmit (h : Host) : Host :=
  match h.conn.segmentsOut with
  | [] => h
  | seg :: rest =>
      { h with conn := { h.conn with segmentsOut := rest }, wire := h.wire ++ [seg] }

/-- A successful operation, taken apart. -/
theorem act_cases {h h' : Host} {op : TCPConnection.Op} (hact : h.act op = .ok h') :
    h.conn.step op = .ok h'.conn ∧ h'.accepted = h.accepted ++ h.conn.acceptedBy op ∧
      h'.popped = h.popped ++ h.poppedBy op ∧ h'.wire = h.wire ∧
      h'.removed = h.removed ++ h.conn.sender.outstandingSegments.filter
        (fun seg => seg ∉ h'.conn.sender.outstandingSegments) := by
  unfold act at hact
  cases hstep : h.conn.step op with
  | error fault => simp [hstep] at hact
  | ok conn =>
      simp only [hstep, Except.ok.injEq] at hact
      subst hact
      exact ⟨rfl, rfl, rfl, rfl, rfl⟩

/-- The operation succeeds whenever the connection's does. -/
theorem exists_act (h : Host) {op : TCPConnection.Op} {conn : TCPConnection}
    (stepped : h.conn.step op = .ok conn) :
    ∃ removed, h.act op = .ok
      { conn := conn
        accepted := h.accepted ++ h.conn.acceptedBy op
        popped := h.popped ++ h.poppedBy op
        wire := h.wire
        removed := removed } := by
  unfold act
  rw [stepped]
  exact ⟨_, rfl⟩

end Host

/-- The state of both endpoints. -/
abbrev Network := Side → Host

namespace Network

inductive Op where
  | connect (side : Side)
  | write (side : Side) (data : List UInt8)
  | endInputStream (side : Side)
  | tick (side : Side) (ms : ℕ)
  | read (side : Side) (len : ℕ)
  | transmit (side : Side)
  /-- The `i`-th segment ever sent by the peer reaches `side`. -/
  | deliver (side : Side) (i : ℕ)
  deriving Repr, DecidableEq

/-- Two hosts that have done nothing, each with its own configuration. -/
def start (cfg : Side → TCPConfig) : Network := fun side => Host.new (cfg side)

/-- An operation of one host; the other does not notice. -/
def act (n : Network) (side : Side) (op : TCPConnection.Op) : Except Fault Network :=
  match (n side).act op with
  | .error fault => .error fault
  | .ok h => .ok (Function.update n side h)

/-- One step of the network.  To deliver what was never sent is to do nothing. -/
def step (n : Network) : Op → Except Fault Network
  | .connect side => n.act side .connect
  | .write side data => n.act side (.write data)
  | .endInputStream side => n.act side .endInputStream
  | .tick side ms => n.act side (.tick ms)
  | .read side len => n.act side (.read len)
  | .transmit side => .ok (Function.update n side (n side).transmit)
  | .deliver side i =>
      match (n side.peer).wire[i]? with
      | none => .ok n
      | some seg => n.act side (.segment seg)

/-- **One step of the network, taken apart**: nothing happens, a host transmits, or
a host acts, and a segment it is given was sent by its peer. -/
theorem step_cases {n n' : Network} {op : Op} (h : n.step op = .ok n') :
    n' = n ∨ (∃ side, n' = Function.update n side (n side).transmit) ∨
    ∃ side act h', (n side).act act = .ok h' ∧ n' = Function.update n side h' ∧
      (∀ seg, act = .segment seg →
        ∃ i, op = .deliver side i ∧ (n side.peer).wire[i]? = some seg) ∧
      (∀ data, act = .write data → op = .write side data) := by
  have acted : ∀ (side : Side) (act : TCPConnection.Op), n.act side act = .ok n' →
      ∃ h', (n side).act act = .ok h' ∧ n' = Function.update n side h' := by
    intro side act hact
    unfold Network.act at hact
    cases hh : (n side).act act with
    | error fault => simp [hh] at hact
    | ok h' =>
        simp only [hh, Except.ok.injEq] at hact
        exact ⟨h', rfl, hact.symm⟩
  cases op with
  | deliver side i =>
      unfold step at h
      cases hseg : (n side.peer).wire[i]? with
      | none =>
          simp only [hseg, Except.ok.injEq] at h
          exact Or.inl h.symm
      | some seg =>
          simp only [hseg] at h
          obtain ⟨h', hact, hn'⟩ := acted side (.segment seg) h
          refine Or.inr (Or.inr ⟨side, _, h', hact, hn', ?_, by simp⟩)
          rintro seg' ⟨⟩
          exact ⟨i, rfl, hseg⟩
  | transmit side => exact Or.inr (Or.inl ⟨side, (Except.ok.inj h).symm⟩)
  | connect side =>
      obtain ⟨h', hact, hn'⟩ := acted side .connect h
      exact Or.inr (Or.inr ⟨side, _, h', hact, hn', by simp, by simp⟩)
  | write side data =>
      obtain ⟨h', hact, hn'⟩ := acted side (.write data) h
      exact Or.inr (Or.inr ⟨side, _, h', hact, hn', by simp, by simp⟩)
  | endInputStream side =>
      obtain ⟨h', hact, hn'⟩ := acted side .endInputStream h
      exact Or.inr (Or.inr ⟨side, _, h', hact, hn', by simp, by simp⟩)
  | tick side ms =>
      obtain ⟨h', hact, hn'⟩ := acted side (.tick ms) h
      exact Or.inr (Or.inr ⟨side, _, h', hact, hn', by simp, by simp⟩)
  | read side len =>
      obtain ⟨h', hact, hn'⟩ := acted side (.read len) h
      exact Or.inr (Or.inr ⟨side, _, h', hact, hn', by simp, by simp⟩)

end Network

/-! ## A genuine segment at its receiver -/

namespace TCPSender

/-- A segment of the sender `s`, which has accepted `W`, as the receiver `r` sees it.  The
receiver computes an index into the stream from the sequence number and its own position; what the
segment carries stands at that index in `W`, and a FIN is where `s` has put it. -/
structure Arrives (W : List UInt8) (s : TCPSender) (r : TCPReceiver) (seg : TCPSegment) :
    Prop where
  wellTyped : seg.WellTyped
  syn : seg.header.syn = true → seg.header.seqno = s.isn
  excerpt : seg.payload <+: W.drop (r.streamIndex seg s.isn)
  fin : seg.header.fin = true → s.isTransmissionEnded = true ∧
    r.streamIndex seg s.isn + seg.payload.length + 2 = s.nextSeqno

variable {W : List UInt8} {s : TCPSender} {r : TCPReceiver} {seg : TCPSegment}

/-- Below `2^31`, unwrapping is exact: the payload is pushed at its own index. -/
theorem Carried.streamIndex_eq {a : ℕ} (car : Carried W s a seg)
    (small : s.nextSeqno < 2 ^ 31) (hcur : r.curIndex < 2 ^ 31) :
    r.streamIndex seg s.isn = a - 1 := by
  have hstop := car.stop_le
  unfold TCPReceiver.streamIndex TCPReceiver.dataStart
  rw [car.seqno]
  split
  · next hsyn =>
    rw [car.syn_iff.mp hsyn, wrap_add_one,
      unwrap_wrap s.isn (by omega) (by omega) (by omega) (by omega)]
    rfl
  · next hsyn =>
    have hpos : 0 < a := Nat.pos_of_ne_zero fun hzero => hsyn (car.syn_iff.mpr hzero)
    rw [unwrap_wrap s.isn (by omega) (by omega) (by omega) (by omega), sub64_of_le hpos]

/-- A genuine segment arrives as what it is, however late. -/
theorem Genuine.arrives (genuine : Genuine W s seg) (small : s.nextSeqno < 2 ^ 31)
    (hcur : r.curIndex < 2 ^ 31) : Arrives W s r seg := by
  rcases genuine with hempty | ⟨a, car⟩
  · -- without sequence numbers there is no payload, SYN or FIN to place
    obtain ⟨⟨hpayload, hsyn⟩, hfin⟩ :
        (seg.payload = [] ∧ seg.header.syn = false) ∧ seg.header.fin = false := by
      simpa [TCPSegment.lengthInSequenceSpace] using hempty
    refine ⟨?_, by simp [hsyn], by simp [hpayload], by simp [hfin]⟩
    rw [TCPSegment.WellTyped, hpayload]
    exact Nat.zero_le _
  · have hindex := car.streamIndex_eq small hcur
    refine ⟨car.payload_le.trans (by decide), fun hsyn => ?_, ?_, fun hfin => ?_⟩
    · rw [car.seqno, car.syn_iff.mp hsyn, wrap_zero]
    · rw [hindex]
      rcases car.payload with hnil | ⟨-, hpre⟩
      · rw [hnil]
        exact List.nil_prefix
      · exact hpre
    · obtain ⟨ended, hstop⟩ := car.fin hfin
      refine ⟨ended, ?_⟩
      rw [hindex, ← hstop, TCPSegment.lengthInSequenceSpace, hfin]
      by_cases hsyn : seg.header.syn = true
      · simp only [hsyn, if_true, car.syn_iff.mp hsyn]
        omega
      · have : a ≠ 0 := fun hzero => hsyn (car.syn_iff.mpr hzero)
        simp only [hsyn, if_true, Bool.false_eq_true, if_false]
        omega

end TCPSender

namespace Host

open TCPSender

/-! ## What a host has sent -/

/-- Everything ever put on the outbound queue. -/
def emitted (h : Host) : List TCPSegment := h.wire ++ h.conn.segmentsOut

/-- Transmitting emits nothing new. -/
theorem emitted_transmit (h : Host) : h.transmit.emitted = h.emitted := by
  unfold transmit
  split
  · rfl
  · next seg rest hqueue => simp [emitted, hqueue]

/-- Everything the host has emitted is genuine: it carries bytes that were accepted, at the
sequence numbers they have.  This is an invariant of one host, whatever its peer and the network
do. -/
structure Outgoing (h : Host) : Prop where
  outbound : h.conn.Outbound h.accepted
  genuine : ∀ seg ∈ h.emitted, Genuine h.accepted h.conn.sender seg

/-- A new host has emitted nothing. -/
theorem outgoing_new {cfg : TCPConfig} (hcap : cfg.sendCapacity < 2 ^ 64) :
    (new cfg).Outgoing :=
  ⟨TCPConnection.outbound_new hcap, by simp [emitted, new, TCPConnection.new]⟩

variable {h h' p p' : Host} {op : TCPConnection.Op}

/-- The SYN, the bytes and the FIN are all there is to number. -/
theorem Outgoing.nextSeqno_le (g : h.Outgoing) :
    h.conn.sender.nextSeqno ≤ h.accepted.length + 2 :=
  g.outbound.sound.inv.toSynced.nextSeqno_le

theorem Outgoing.nextSeqno_lt (g : h.Outgoing) (small : h.accepted.length < 2 ^ 31 - 2) :
    h.conn.sender.nextSeqno < 2 ^ 64 := by
  have := g.nextSeqno_le
  omega

/-- The effect of an operation on the outbound half. -/
theorem Outgoing.effect (g : h.Outgoing) (hnext : h.conn.sender.nextSeqno < 2 ^ 64)
    (hact : h.act op = .ok h') :
    TCPConnection.Effect h'.accepted (TCPConnection.ackedBy op) h.conn h'.conn := by
  obtain ⟨hstep, haccepted, -⟩ := act_cases hact
  rw [haccepted]
  exact g.outbound.step hnext hstep

/-- What a host emits was emitted before, or is genuine and acknowledges what the
receiver has now. -/
theorem Outgoing.emitted_act (g : h.Outgoing) (hnext : h.conn.sender.nextSeqno < 2 ^ 64)
    (hact : h.act op = .ok h') {seg : TCPSegment} (hseg : seg ∈ h'.emitted) :
    seg ∈ h.emitted ∨ Genuine h'.accepted h'.conn.sender seg ∧
      (seg.header.ack = true → h'.conn.receiver.ackno = some seg.header.ackno) := by
  obtain ⟨extra, hextra, hnew⟩ := (g.effect hnext hact).emitted
  obtain ⟨-, -, -, hwire, -⟩ := act_cases hact
  rw [emitted, hwire, hextra, ← List.append_assoc] at hseg
  exact (List.mem_append.mp hseg).imp_right (hnew seg)

/-- Whatever a host does, all that it has emitted is genuine. -/
theorem Outgoing.act (g : h.Outgoing) (hnext : h.conn.sender.nextSeqno < 2 ^ 64)
    (hact : h.act op = .ok h') : h'.Outgoing := by
  have effect := g.effect hnext hact
  refine ⟨effect.outbound, fun seg hseg => ?_⟩
  rcases g.emitted_act hnext hact hseg with hold | ⟨genuine, -⟩
  · rw [(act_cases hact).2.1]
    exact ((g.genuine seg hold).later effect.advanced).grow _
  · exact genuine

/-- Transmitting moves a segment from the queue to the network. -/
theorem transmit_frame (h : Host) : h.transmit =
    { h with
      conn := { h.conn with segmentsOut := h.transmit.conn.segmentsOut }
      wire := h.transmit.wire } := by
  unfold transmit
  split <;> rfl

theorem Outgoing.transmit (g : h.Outgoing) : h.transmit.Outgoing := by
  have hgenuine : ∀ seg ∈ h.transmit.emitted, Genuine h.accepted h.conn.sender seg := by
    rw [emitted_transmit]
    exact g.genuine
  rw [transmit_frame h] at hgenuine ⊢
  exact ⟨⟨g.outbound.sound, g.outbound.unsent⟩, hgenuine⟩

/-! ## What a host has received -/

/-- What the host has assembled, stored and read is the stream of its peer `p`.  As an invariant
it needs `p.Outgoing`, and that what is delivered was emitted by `p`; it does not need that
anything arrives. -/
structure Incoming (p h : Host) : Prop where
  receiver : h.conn.receiver.Inv
  isn : ∀ isn, h.conn.receiver.isn = some isn → isn = p.conn.sender.isn
  faithful : h.conn.receiver.reassembler.Faithful p.accepted h.popped

/-- A new host has received nothing. -/
theorem incoming_new {cfg cfg' : TCPConfig} (hcap : cfg'.recvCapacity < 2 ^ 64) :
    Incoming (new cfg) (new cfg') where
  receiver := TCPReceiver.inv_new hcap
  isn := by simp [new, TCPConnection.new, TCPReceiver.new]
  faithful := StreamReassembler.faithful_new [] hcap

/-- **What an operation does to the inbound stream**, given that every segment comes
from the peer `p`: nothing, the error flag, a read, or the push of an excerpt of
what `p` has accepted. -/
inductive Reception (p h : Host) (op : TCPConnection.Op) (h' : Host) : Prop
  | unchanged (popped : h'.popped = h.popped)
      (same : h'.conn.receiver.reassembler = h.conn.receiver.reassembler)
  | error (popped : h'.popped = h.popped)
      (reassembler : h'.conn.receiver.reassembler = h.conn.receiver.setError.reassembler)
  | read (len : ℕ)
      (popped : h'.popped = h.popped ++ h.conn.receiver.streamOut.str.take len)
      (reassembler : h'.conn.receiver.reassembler =
        { h.conn.receiver.reassembler with
          output := h.conn.receiver.streamOut.popOutput len })
  | push (seg : TCPSegment) (popped : h'.popped = h.popped) (op_eq : op = .segment seg)
      (noRst : seg.header.rst = false)
      (isnAfter : h.conn.receiver.isnAfter seg = some p.conn.sender.isn)
      (arrives : Arrives p.accepted p.conn.sender h.conn.receiver seg)
      (range : h.conn.receiver.InRange seg)
      (hne : TCPReceiver.dataStart seg ≠ p.conn.sender.isn)
      (pushed : h.conn.receiver.reassembler.pushSubstring seg.payload
        (h.conn.receiver.streamIndex seg p.conn.sender.isn) seg.header.fin
          = .ok h'.conn.receiver.reassembler)

/-- An operation of a host, when the segments it is given were sent by its peer.  The bound on
what the peer has accepted is what makes an index computed from 32 bits the right one. -/
structure Fed (p h : Host) (op : TCPConnection.Op) (h' : Host) : Prop where
  small : p.accepted.length < 2 ^ 31 - 2
  peer : p.Outgoing
  sent : ∀ seg, op = .segment seg → seg ∈ p.emitted
  acted : h.act op = .ok h'

/-- What is fed to a host arrives as its peer sent it. -/
theorem Fed.arrives (fed : Fed p h op h') (inc : Incoming p h) {seg : TCPSegment}
    (hop : op = .segment seg) :
    Arrives p.accepted p.conn.sender h.conn.receiver seg ∧ h.conn.receiver.InRange seg := by
  have hnext := fed.peer.nextSeqno_le
  have hsmall := fed.small
  have hcur : h.conn.receiver.curIndex ≤ p.accepted.length := inc.faithful.curIndex_le
  have arrives : Arrives p.accepted p.conn.sender h.conn.receiver seg :=
    (fed.peer.genuine seg (fed.sent seg hop)).arrives (by omega) (by omega)
  exact ⟨arrives, by omega, arrives.wellTyped⟩

/-- **What feeding does to the inbound stream**: one of four things, and the initial sequence
number is the peer's.  The later modules never look at `segment_received` for the inbound
direction, but argue by these four cases. -/
theorem Fed.reception (fed : Fed p h op h') (inc : Incoming p h) :
    Reception p h op h' ∧ h'.conn.receiver.Inv ∧
      ∀ isn, h'.conn.receiver.isn = some isn → isn = p.conn.sender.isn := by
  obtain ⟨hstep, -, hpopped, -⟩ := act_cases fed.acted
  have unread (hread : ∀ len, op ≠ .read len) : h'.popped = h.popped := by
    rw [hpopped]
    cases op with
    | read len => exact absurd rfl (hread len)
    | _ => exact List.append_nil _
  -- the four things that can happen to a receiver, as far as its peer is concerned
  rcases TCPConnection.step_receiver hstep with
    ⟨hread, hsame | herror⟩ | ⟨len, rfl, hreceiver⟩ | ⟨seg, hop, noRst, hseg⟩
  · rw [hsame]
    exact ⟨.unchanged (unread hread) (by rw [hsame]), inc.receiver, inc.isn⟩
  · rw [herror]
    exact ⟨.error (unread hread) (by rw [herror]), inc.receiver.setError, inc.isn⟩
  · have heq := inc.receiver.reassembler.readOut_eq len
    rw [hreceiver]
    refine ⟨.read len ?_ ?_, inc.receiver.readOut len, inc.isn⟩
    · rw [hpopped]
      simp only [poppedBy, TCPConnection.readInbound, TCPReceiver.readOut, heq]
      rfl
    · simp only [hreceiver, TCPReceiver.readOut, heq]
      rfl
  · obtain ⟨arrives, range⟩ := fed.arrives inc hop
    obtain ⟨hisn, -, hcases⟩ := TCPReceiver.segmentReceived_cases hseg
    have isn : ∀ isn, h'.conn.receiver.isn = some isn → isn = p.conn.sender.isn := by
      intro isn his
      rw [hisn, TCPReceiver.isnAfter] at his
      split at his
      · next hsyn => rw [← Option.some.inj his, arrives.syn hsyn]
      · exact inc.isn isn his
    have hpop : h'.popped = h.popped := unread (by simp [hop])
    refine ⟨?_, inc.receiver.segmentReceived range hseg, isn⟩
    rcases hcases with ⟨hsame, -⟩ | ⟨isn', hisn', hne, hp⟩
    · exact .unchanged hpop hsame
    · obtain rfl := isn isn' hisn'
      exact .push seg hpop hop noRst (hisn ▸ hisn') arrives range hne hp

/-- **A host keeps receiving the stream of its peer.**  Of the four cases only the push does
something, and there the reassembler's own invariant is enough: what is pushed is an excerpt of
the stream. -/
theorem Incoming.act (inc : Incoming p h) (fed : Fed p h op h') : Incoming p h' := by
  obtain ⟨reception, receiver, isn⟩ := fed.reception inc
  refine ⟨receiver, isn, ?_⟩
  cases reception with
  | unchanged popped same =>
      rw [popped, same]
      exact inc.faithful
  | error popped reassembler =>
      rw [popped, reassembler]
      exact inc.faithful.setError
  | read len popped reassembler =>
      rw [popped, reassembler]
      exact inc.faithful.popOutput len
  | push seg popped _ _ _ arrives range hne pushed =>
      obtain ⟨hcur, hlen⟩ := range.bounds hne
      rw [popped]
      exact inc.faithful.push hcur hlen arrives.excerpt pushed

/-- The peer may accept more in the meantime. -/
theorem Incoming.peer (inc : Incoming p h) {data : List UInt8}
    (accepted : p'.accepted = p.accepted ++ data)
    (isn : p'.conn.sender.isn = p.conn.sender.isn) : Incoming p' h := by
  refine ⟨inc.receiver, ?_, ?_⟩
  · rw [isn]
    exact inc.isn
  · rw [accepted]
    exact inc.faithful.grow data

theorem Incoming.transmit (inc : Incoming p h) : Incoming p h.transmit := by
  rw [transmit_frame h]
  exact ⟨inc.receiver, inc.isn, inc.faithful⟩

end Host

namespace Network

open Host

/-! ## Prefix safety -/

/-- Fewer than `2^31 - 2` bytes have been accepted in each direction. -/
def Bounded (n : Network) : Prop := ∀ side, (n side).accepted.length < 2 ^ 31 - 2

instance (n : Network) : Decidable n.Bounded := inferInstanceAs (Decidable (∀ _, _))

/-- What the hosts have accepted only grows. -/
theorem step_accepted {n n' : Network} {op : Op} (h : n.step op = .ok n') (side : Side) :
    ∃ data, (n' side).accepted = (n side).accepted ++ data := by
  have updated {side' : Side} {h' : Host}
      (hh : ∃ data, h'.accepted = (n side').accepted ++ data) :
      ∃ data, (Function.update n side' h' side).accepted = (n side).accepted ++ data := by
    by_cases hside : side = side'
    · subst hside
      simpa using hh
    · rw [Function.update_of_ne hside]
      exact ⟨[], (List.append_nil _).symm⟩
  rcases step_cases h with rfl | ⟨side', rfl⟩ | ⟨side', act, h', hact, rfl, -, -⟩
  · exact ⟨[], (List.append_nil _).symm⟩
  · refine updated ⟨[], ?_⟩
    rw [transmit_frame, List.append_nil]
  · exact updated ⟨_, (act_cases hact).2.1⟩

/-- The bound held before, for what was accepted only grows. -/
theorem Bounded.before {n n' : Network} {op : Op} (h : n.step op = .ok n')
    (bounded : n'.Bounded) : n.Bounded := by
  intro side
  obtain ⟨data, hdata⟩ := step_accepted h side
  have := bounded side
  rw [hdata, List.length_append] at this
  omega

/-- Both hosts send their streams and receive the stream of the other. -/
def Faithful (n : Network) : Prop :=
  ∀ side, (n side).Outgoing ∧ Incoming (n side.peer) (n side)

/-- At the start both directions are faithful. -/
theorem faithful_start {cfg : Side → TCPConfig}
    (hrecv : ∀ side, (cfg side).recvCapacity < 2 ^ 64)
    (hsend : ∀ side, (cfg side).sendCapacity < 2 ^ 64) : (start cfg).Faithful := fun side =>
  ⟨outgoing_new (hsend side), incoming_new (hrecv side)⟩

/-- What reaches a host is fed to it by its peer. -/
theorem Faithful.fed {n : Network} (faithful : n.Faithful) (bounded : n.Bounded) {side : Side}
    {op : TCPConnection.Op} {h' : Host} (hact : (n side).act op = .ok h')
    (sent : ∀ seg, op = .segment seg → ∃ i : ℕ, (n side.peer).wire[i]? = some seg) :
    Fed (n side.peer) (n side) op h' where
  small := bounded side.peer
  peer := (faithful side.peer).1
  sent := by
    intro seg hop
    obtain ⟨i, hi⟩ := sent seg hop
    exact List.mem_append_left _ (List.mem_of_getElem? hi)
  acted := hact

/-- **Every step keeps both directions faithful.**  What a host receives was sent by its peer, so
the invariant of the inbound direction rests on the other host's of the outbound one. -/
theorem Faithful.step {n n' : Network} {op : Op} (faithful : n.Faithful) (bounded : n.Bounded)
    (h : n.step op = .ok n') : n'.Faithful := by
  rcases step_cases h with rfl | ⟨side, rfl⟩ | ⟨side, act, h', hact, rfl, sent, -⟩
  · exact faithful
  · obtain ⟨outgoing, incoming⟩ := faithful side
    obtain ⟨outgoing', incoming'⟩ := faithful side.peer
    rw [Side.peer_peer] at incoming'
    refine Side.forall_update (R := fun p h => h.Outgoing ∧ Incoming p h)
      ⟨outgoing.transmit, incoming.transmit⟩ ⟨outgoing', ?_⟩
    refine incoming'.peer (?_ : _ = _ ++ []) ?_ <;> rw [transmit_frame]
    rw [List.append_nil]
  · obtain ⟨outgoing, incoming⟩ := faithful side
    obtain ⟨outgoing', incoming'⟩ := faithful side.peer
    rw [Side.peer_peer] at incoming'
    have fed := faithful.fed bounded hact fun seg hop => (sent seg hop).imp fun _ => And.right
    have hnext := outgoing.nextSeqno_lt (bounded side)
    exact Side.forall_update (R := fun p h => h.Outgoing ∧ Incoming p h)
      ⟨outgoing.act hnext hact, incoming.act fed⟩
      ⟨outgoing', incoming'.peer (act_cases hact).2.1
        (outgoing.effect hnext hact).advanced.isn_eq⟩

/-- Under any guard whatever, so that each later result can use its own. -/
theorem faithful_of_run {cfg : Side → TCPConfig}
    (hrecv : ∀ side, (cfg side).recvCapacity < 2 ^ 64)
    (hsend : ∀ side, (cfg side).sendCapacity < 2 ^ 64) {guard : Network → Op → Prop}
    {n : Network} (run : GuardedRun step guard (start cfg) n) (bounded : n.Bounded) :
    n.Faithful := by
  refine run.invariant (fun n => n.Bounded → n.Faithful) (fun _ => faithful_start hrecv hsend)
    (fun n op n' ih _ h bounded' => ?_) bounded
  have bounded : n.Bounded := bounded'.before h
  exact (ih bounded).step bounded h

/-- **Prefix safety.**  Whatever the owners call and however the network loses,
repeats and reorders segments, the bytes ever written into the inbound stream of one
endpoint are a prefix of the bytes the other endpoint accepted. -/
theorem prefix_safety {cfg : Side → TCPConfig}
    (hrecv : ∀ side, (cfg side).recvCapacity < 2 ^ 64)
    (hsend : ∀ side, (cfg side).sendCapacity < 2 ^ 64) {n : Network}
    (run : GuardedRun step (fun _ _ => True) (start cfg) n) (bounded : n.Bounded)
    (side : Side) : (n side).written <+: (n side.peer).accepted := by
  have incoming := (faithful_of_run hrecv hsend run bounded side).2
  have hwritten : (n side).written = _ := incoming.faithful.written_eq
  rw [hwritten]
  exact List.take_prefix _ _

/-- Two endpoints whose sequence numbers wrap around at once. -/
def nearWrap : Side → TCPConfig
  | .a => { fixedIsn := ⟨4294967295⟩ }
  | .b => { fixedIsn := ⟨4294967294⟩ }

/-- The handshake, then the second of two segments of data, twice, before the first. -/
def reordered : List Op :=
  [.connect .a, .transmit .a, .deliver .b 0, .transmit .b, .deliver .a 0,
    .write .a [104, 101], .write .a [121], .transmit .a, .transmit .a, .transmit .a,
    .deliver .b 3, .deliver .b 3, .deliver .b 2, .read .b 1]

theorem prefix_safety_reordered :
    ∃ n, execute step (start nearWrap) reordered = .ok n ∧
      (n .b).written = [104, 101, 121] ∧ (n .b).written <+: (n .a).accepted := by
  obtain ⟨n, done, bounded, hwritten⟩ : ∃ n, execute step (start nearWrap) reordered = .ok n ∧
      n.Bounded ∧ (n .b).written = [104, 101, 121] :=
    EndsIn.exists_ok (by decide +kernel)
  have hcap : ∀ side, (nearWrap side).recvCapacity < 2 ^ 64 := by decide
  have hsend : ∀ side, (nearWrap side).sendCapacity < 2 ^ 64 := by decide
  have run : GuardedRun step (fun _ _ => True) (start nearWrap) n :=
    GuardedRun.of_execute (admitted_of_forall (fun _ _ => trivial) _ _) done
  exact ⟨n, done, hwritten, prefix_safety hcap hsend run bounded .b⟩

end Network

end Sponge
