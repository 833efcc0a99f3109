import Sponge.Network.HalfClose
import Sponge.TCPConnection.Emission
import Sponge.TCPSpongeSocket.Turn

/-!
# Two sockets are two hosts on a network

Two sockets with their owners, their adapters and whatever carries the datagrams between
them.  A step is one turn of one of the two threads, with whatever the kernel answers; of
the network it is only asked that it does not make up segments (`Happens.unforged`).  What is lost,
repeated, reordered, or damaged beyond recognition is up to it, and the adapters may lose or
hold back segments as well.

`Side → Running` is the concrete system, `Network` the abstract one: two connections, what
their owners wrote and read, and every segment ever sent.  A socket shows a host (`Shows`),
and a callback is one or two steps of the network (`Simulated.datagramIn` and so on).  A turn is
a sequence of callbacks, so it is a run of the network, with the peer standing still
(`kept_simulated`).

Main results:

* `sockets_refine_network` — every run of two sockets is a run of the network, in which no owner
  writes after the end of its stream.
* `refines` — the same with all that is known on the way, for the properties of the next module.

### The relation

A host has the connection of its socket, the bytes that were taken from and given to the
owner, and the segments that were handed to the adapter.  That is all of it but for
`removed`, which is history of the network's own and is found along the way.  Of the rest of
a socket only three facts are needed (`Sound`), among them that whatever the adapter has put
out, or may still put out, is one of the segments on the host's wire.  It is the same
message and not the same segment: an adapter writes the ports and the checksum, and the
connection reads neither (`TCPConnection.segmentReceived_sameMessage`).

### The peer stands still

One thread takes a turn at a time.  `Simulates` therefore speaks of one socket, and of a
network in which the host of this side is `h` and the other one is where it was:
`Function.update n side h`.  A callback moves `h`.  After the turn the two are put together
again (`Refined.update`).

### Parameters of the simulation

Two things are left open, so that the argument is made once.  `ordered` says whether FINs
are required to arrive in order; the prefix property does not need it and the end of a
stream does.  `Told` is what is known of the network from the moment the owner is told of
the end: a flag of a socket outlives the state in which it was set, so what it stands for
has to be stable, and `Watch` says that it is.
-/

namespace Sponge

open EventLoop Runs

namespace TCPConnection

variable {c c' : TCPConnection} {op : Op}

/-- The outbound stream is open. -/
def OutOpen (c : TCPConnection) : Prop := c.sender.stream.inputIsEnd = false

/-- Filling the window does not end the stream. -/
theorem outOpen_fill {s : TCPSender} (hstream : c.sender.stream = s.fillWindow.stream)
    (isOpen : s.stream.inputIsEnd = false) : c.OutOpen := by
  rw [OutOpen, hstream, TCPSender.fillWindow_inputIsEnd]
  exact isOpen

/-- Nor does a reset, -/
theorem OutOpen.sendRst (h : c.OutOpen) : c.sendRstSegmenet.OutOpen := by
  unfold sendRstSegmenet
  simp only
  split <;> exact h

/-- or the answer to a segment. -/
theorem OutOpen.respond (h : c.OutOpen) (seg : TCPSegment) : (c.respond seg).OutOpen := by
  refine respond_rule (P := OutOpen) (outOpen_fill rfl ?_) (fun _ h => h) fun _ h => h
  rw [(acknowledge_effect c.sender seg).2]
  exact h

/-- **Only `end_input_stream` ends the outbound stream.** -/
theorem OutOpen.step (h : c.OutOpen) (hop : op ≠ .endInputStream)
    (stepped : c.step op = .ok c') : c'.OutOpen := by
  cases op with
  | connect =>
      obtain rfl := Except.ok.inj stepped
      exact outOpen_fill (s := c.sender) rfl h
  | write data =>
      obtain rfl := Except.ok.inj stepped
      exact outOpen_fill (s := { c.sender with stream := (c.sender.stream.write data).2 }) rfl h
  | endInputStream => exact absurd rfl hop
  | tick ms =>
      obtain rfl := Except.ok.inj stepped
      have ticked : OutOpen { c with
          timeSinceLastSegReceived := add64 c.timeSinceLastSegReceived ms
          sender := c.sender.tick ms } := by
        obtain ⟨-, -, -, frame⟩ := c.sender.tick_effect ms
        show (c.sender.tick ms).stream.inputIsEnd = false
        rw [frame]
        exact h
      unfold TCPConnection.tick
      simp only
      split
      · exact ticked.sendRst
      · exact ticked
  | read len =>
      obtain rfl := Except.ok.inj stepped
      exact h
  | segment seg =>
      rcases segmentReceived_cases stepped with rfl | rfl | rfl | ⟨receiver, -, -, rfl⟩
      · exact h
      · exact h
      · exact h
      · exact OutOpen.respond (c := { c with timeSinceLastSegReceived := 0, receiver := receiver })
          h seg

end TCPConnection

/-- The segments of a connection fit a datagram. -/
theorem TCPSegment.Plain.fits {seg : TCPSegment} (h : seg.Plain) : seg.Fits := by
  have doff : seg.header.doff.toNat = 5 := by rw [h.doff]; rfl
  have payload : seg.payload.length ≤ 1000 := h.payload
  exact ⟨by omega, by omega, by omega⟩

/-- Neither the ports nor the checksum matter to the order of a FIN. -/
theorem TCPReceiver.FinInOrder.sameMessage {r : TCPReceiver} {seg seg' : TCPSegment}
    (same : seg.SameMessage seg') (h : r.FinInOrder seg') : r.FinInOrder seg := by
  obtain ⟨header', payload'⟩ := seg'
  obtain ⟨hpayload, sport, dport, cksum, hheader⟩ := same
  cases hpayload
  cases hheader
  exact h

namespace TCPSpongeSocket

variable {A D : Type}

/-- The host that is seen at a socket. -/
def Shows (s : TCPSpongeSocket A D) (h : Host) : Prop :=
  h = { conn := s.tcp, accepted := s.fromOwner, popped := s.toOwner, wire := s.wire,
        removed := h.removed }

/-- The bytes that go to the owner are the first bytes of the inbound stream. -/
theorem inboundBytes_take {s : TCPSpongeSocket A D} {len : ℕ} (enough : len ≤ s.inboundBytes.length) :
    s.inboundBytes.take len = (s.tcp.readInbound len).1 := by
  set b := s.tcp.receiver.streamOut with hb
  have offered : s.inboundBytes = b.str.take (min (min 65536 b.bufferSize) b.bufferSize) := rfl
  have taken : (s.tcp.readInbound len).1 = b.str.take (min (min len b.bufferSize) b.bufferSize) :=
    rfl
  rw [offered, List.length_take] at enough
  rw [offered, taken, List.take_take]
  congr 1
  omega

variable [FdAdapter A D]

/-- What is outstanding was on the device, or is new. -/
theorem outstanding_split {relay : Relay A} {adapter : A} {device ds : List D} {seg : TCPSegment}
    (h : relay.Outstanding adapter (device ++ ds) seg) :
    (∃ d ∈ device, relay.Delivers (FdAdapter.bytes A d) seg) ∨
      relay.Outstanding adapter ds seg := by
  rcases h with held | ⟨d, hd, delivers⟩
  · exact .inr (.inl held)
  · rcases List.mem_append.mp hd with old | new
    · exact .inl ⟨d, old, delivers⟩
    · exact .inr (.inr ⟨d, new, delivers⟩)

/-- What holds of a socket by itself: its segments are plain ones, whatever the adapter holds or has
put on its device was sent, and the outbound stream stays open until the owner has finished. -/
structure Sound (relay : Relay A) (s : TCPSpongeSocket A D) : Prop where
  plain : s.tcp.Plain
  sent : ∀ seg, relay.Outstanding s.datagramAdapter s.device seg → ∃ w ∈ s.wire, w.SameMessage seg
  isOpen : s.outboundShutdown = false → s.tcp.OutOpen

/-! ## One socket, its peer standing still -/

/-- The guard of the network: no owner writes after the end of its stream and, if that is required,
no FIN overtakes the byte in front of it. -/
def Admits (ordered : Prop) (n : Network) (op : Network.Op) : Prop :=
  n.NoWriteAfterEnd op ∧ (ordered → n.FinInOrder op)

/-- **Something that is known of the network once the owner of a side has been told** that there will
be nothing more: it holds as soon as the inbound stream is done, and stays so. -/
structure Watch (ordered : Prop) (cfg : Side → TCPConfig) (Told : Side → Network → Prop) : Prop where
  entered : ∀ side n, GuardedRun Network.step (Admits ordered) (Network.start cfg) n →
    ((n side).conn.receiver.streamOut.eof || (n side).conn.receiver.streamOut.error) = true →
      Told side n
  stays : ∀ side n op n', GuardedRun Network.step (Admits ordered) (Network.start cfg) n →
    Told side n → Admits ordered n op → Network.step n op = .ok n' → Told side n'

section Simulation

variable {relay : Relay A} {ordered : Prop} {cfg : Side → TCPConfig}
variable {Told : Side → Network → Prop} {n : Network} {side : Side}

/-- **A state of the network shows at the socket**, in which the peer is where it is in `n`.  `n`
is where the turn began: a turn is many operations of the network, all of them at one side. -/
structure Simulates (relay : Relay A) (ordered : Prop) (cfg : Side → TCPConfig)
    (Told : Side → Network → Prop) (n : Network) (side : Side) (s : TCPSpongeSocket A D) (h : Host) :
    Prop where
  reached : GuardedRun Network.step (Admits ordered) (Network.start cfg) (Function.update n side h)
  since : GuardedRun Network.step (Admits ordered) n (Function.update n side h)
  shown : s.Shows h
  sound : s.Sound relay
  told : s.inboundShutdown = true → Told side (Function.update n side h)

/-- Some state of the network shows at the socket. -/
def Simulated (relay : Relay A) (ordered : Prop) (cfg : Side → TCPConfig)
    (Told : Side → Network → Prop) (n : Network) (side : Side) (s : TCPSpongeSocket A D) : Prop :=
  ∃ h, Simulates relay ordered cfg Told n side s h

/-- The bytes an operation takes from the inbound stream. -/
def readBy (c : TCPConnection) : TCPConnection.Op → List UInt8
  | .read len => (c.readInbound len).1
  | _ => []

variable {s s' : TCPSpongeSocket A D}

/-- **An operation of the connection.** -/
theorem Simulated.act (watch : Watch ordered cfg Told) (sim : Simulated relay ordered cfg Told n side s)
    (op : Network.Op) (act : TCPConnection.Op) (stepped : s.tcp.step act = .ok s'.tcp)
    (hop : ∀ h, Network.step (Function.update n side h) op
      = Network.act (Function.update n side h) side act)
    (admits : ∀ h, s.Shows h → Admits ordered (Function.update n side h) op)
    (fromOwner : s'.fromOwner = s.fromOwner ++ s.tcp.acceptedBy act)
    (toOwner : s'.toOwner = s.toOwner ++ readBy s.tcp act) (wire : s'.wire = s.wire)
    (shut : s'.inboundShutdown = s.inboundShutdown)
    (sent : ∀ seg, relay.Outstanding s'.datagramAdapter s'.device seg →
      relay.Outstanding s.datagramAdapter s.device seg)
    (isOpen : s'.outboundShutdown = false → s.outboundShutdown = false ∧ act ≠ .endInputStream) :
    Simulated relay ordered cfg Told n side s' := by
  obtain ⟨h, reached, since, shown, sound, told⟩ := sim
  have hconn : h.conn = s.tcp := by rw [shown]
  obtain ⟨removed, acted⟩ := h.exists_act (hconn ▸ stepped)
  set h' : Host :=
    { conn := s'.tcp
      accepted := h.accepted ++ h.conn.acceptedBy act
      popped := h.popped ++ h.poppedBy act
      wire := h.wire
      removed := removed } with hh'
  have step : Network.step (Function.update n side h) op = .ok (Function.update n side h') := by
    rw [hop, Network.act, Function.update_self, acted]
    simp only [Function.update_idem]
  have admitted := admits h shown
  refine ⟨h', reached.tail admitted step, since.tail admitted step, ?_, ⟨?_, ?_, ?_⟩, ?_⟩
  · have popped : h.poppedBy act = readBy s.tcp act := by
      rw [← hconn]
      cases act <;> rfl
    rw [Shows, hh', fromOwner, toOwner, wire, popped, hconn, shown]
  · exact sound.plain.step stepped
  · intro seg outstanding
    rw [wire]
    exact sound.sent seg (sent seg outstanding)
  · intro still
    obtain ⟨before, notEnd⟩ := isOpen still
    exact (sound.isOpen before).step notEnd stepped
  · rw [shut]
    exact fun done => watch.stays side _ op _ reached (told done) admitted step

/-- What does not touch the connection or its history. -/
theorem Simulated.silent (sim : Simulated relay ordered cfg Told n side s) (tcp : s'.tcp = s.tcp)
    (fromOwner : s'.fromOwner = s.fromOwner) (toOwner : s'.toOwner = s.toOwner)
    (wire : s'.wire = s.wire) (inShut : s'.inboundShutdown = s.inboundShutdown)
    (outShut : s'.outboundShutdown = s.outboundShutdown)
    (sent : ∀ seg, relay.Outstanding s'.datagramAdapter s'.device seg →
      relay.Outstanding s.datagramAdapter s.device seg) :
    Simulated relay ordered cfg Told n side s' := by
  obtain ⟨h, reached, since, shown, sound, told⟩ := sim
  refine ⟨h, reached, since, ?_, ⟨?_, ?_, ?_⟩, ?_⟩
  · rw [Shows, tcp, fromOwner, toOwner, wire]
    exact shown
  · rw [tcp]
    exact sound.plain
  · intro seg outstanding
    rw [wire]
    exact sound.sent seg (sent seg outstanding)
  · rw [outShut, tcp]
    exact sound.isOpen
  · rw [inShut]
    exact told

/-- **A datagram is taken**: nothing happens at the connection, or a segment of the peer is
delivered. -/
theorem Simulated.datagramIn (watch : Watch ordered cfg Told)
    (sim : Simulated relay ordered cfg Told n side s)
    (genuine : ∀ seg, relay.Delivers (FdAdapter.bytes A s.kernel.datagram) seg →
      ∃ w ∈ (n side.peer).wire, w.SameMessage seg)
    (inOrder : ordered → ∀ seg, relay.Delivers (FdAdapter.bytes A s.kernel.datagram) seg →
      s.tcp.receiver.FinInOrder seg)
    (taken : DatagramTaken s s') : Simulated relay ordered cfg Told n side s' := by
  obtain ⟨out, adapter, ds, hread, outcome, frame⟩ := taken
  obtain ⟨delivers, held⟩ := relay.read hread
  have sent : ∀ seg, relay.Outstanding s'.datagramAdapter s'.device seg →
      relay.Outstanding s.datagramAdapter s.device seg := by
    intro seg outstanding
    rw [frame] at outstanding
    rcases outstanding_split outstanding with before | now
    · exact .inr before
    · exact .inl (held seg now)
  have fromOwner : s'.fromOwner = s.fromOwner := by rw [frame]
  have toOwner : s'.toOwner = s.toOwner := by rw [frame]
  have wire : s'.wire = s.wire := by rw [frame]
  have inShut : s'.inboundShutdown = s.inboundShutdown := by rw [frame]
  have outShut : s'.outboundShutdown = s.outboundShutdown := by rw [frame]
  rcases outcome with ⟨-, tcp⟩ | ⟨seg, rfl, received⟩
  · exact sim.silent tcp fromOwner toOwner wire inShut outShut sent
  -- the segment is one that the peer has sent, up to what the adapters change; the network
  -- delivers that one
  obtain ⟨w, hw, same⟩ := genuine seg (delivers seg rfl)
  obtain ⟨i, hi⟩ := List.mem_iff_getElem?.mp hw
  have peer : ∀ h, Function.update n side h side.peer = n side.peer := fun h =>
    Function.update_of_ne side.peer_ne h n
  refine sim.act watch (.deliver side i) (.segment w) ?_ ?_ ?_ ?_ ?_ wire inShut sent ?_
  · exact (s.tcp.segmentReceived_sameMessage same).symm.trans received
  · intro h
    simp only [Network.step, peer, hi]
  · intro h shown
    refine ⟨trivial, fun required seg' hseg' => ?_⟩
    rw [peer, hi] at hseg'
    cases hseg'
    rw [Function.update_self, shown]
    exact (inOrder required seg (delivers seg rfl)).sameMessage same
  · rw [fromOwner]
    exact (List.append_nil _).symm
  · rw [toOwner]
    exact (List.append_nil _).symm
  · rw [outShut]
    exact fun still => ⟨still, by simp⟩

/-- **The owner has finished.** -/
theorem Simulated.endOutbound (watch : Watch ordered cfg Told)
    (sim : Simulated relay ordered cfg Told n side s) :
    Simulated relay ordered cfg Told n side s.endOutbound :=
  sim.act watch (.endInputStream side) .endInputStream rfl (fun _ => rfl)
    (fun _ _ => ⟨trivial, fun _ => trivial⟩) (List.append_nil _).symm (List.append_nil _).symm rfl
    rfl (fun _ => id) fun still => nomatch still

/-- **Data is taken from the owner.** -/
theorem Simulated.dataIn (watch : Watch ordered cfg Told)
    (sim : Simulated relay ordered cfg Told n side s)
    (still : s.outboundShutdown = false) (taken : DataTaken s s') :
    Simulated relay ordered cfg Told n side s' := by
  obtain ⟨data, threadData, -, all, rfl⟩ := taken
  have isOpen : s.tcp.OutOpen := by
    obtain ⟨h, simulates⟩ := sim
    exact simulates.sound.isOpen still
  have accepted : Simulated relay ordered cfg Told n side (s.accepted data threadData) := by
    refine sim.act watch (.write side data) (.write data) rfl (fun _ => rfl) ?_ ?_
      (List.append_nil _).symm rfl rfl (fun _ => id) ?_
    · intro h shown
      refine ⟨?_, fun _ => trivial⟩
      show (Function.update n side h side).conn.OutOpen
      rw [Function.update_self, shown]
      exact isOpen
    · show s.fromOwner ++ data = s.fromOwner ++ data.take (s.tcp.write data).1
      rw [all, List.take_length]
    · intro still'
      exact ⟨still', by simp⟩
  split
  · exact accepted.endOutbound watch
  · exact accepted

/-- **Data is handed to the owner**, who is told if that was the last. -/
theorem Simulated.dataOut (watch : Watch ordered cfg Told)
    (sim : Simulated relay ordered cfg Told n side s) (given : DataGiven s s') :
    Simulated relay ordered cfg Told n side s' := by
  obtain ⟨len, enough, rfl⟩ := given
  set s₁ := s.handedOver len (s.inboundBytes.take len) s.threadData.registerWrite with hs₁
  have handed : Simulated relay ordered cfg Told n side s₁ := by
    refine sim.act watch (.read side len) (.read len) ?_ (fun _ => rfl)
      (fun _ _ => ⟨trivial, fun _ => trivial⟩) (List.append_nil _).symm ?_ rfl rfl (fun _ => id)
      fun still => ⟨still, by simp⟩
    · exact congrArg Except.ok (s.tcp.popInbound_eq len).symm
    · exact congrArg (s.toOwner ++ ·) (inboundBytes_take enough)
  split
  · next done =>
    obtain ⟨h, reached, since, shown, sound, -⟩ := handed
    refine ⟨h, reached, since, shown, ⟨sound.plain, sound.sent, sound.isOpen⟩, fun _ => ?_⟩
    refine watch.entered side _ reached ?_
    rw [Function.update_self, shown]
    exact done
  · exact handed

/-- **A segment is sent.** -/
theorem Simulated.written (watch : Watch ordered cfg Told) {seg : TCPSegment}
    {segs : List TCPSegment} {adapter : A} {ds : List D}
    (sim : Simulated relay ordered cfg Told n side s) (queue : s.tcp.segmentsOut = seg :: segs)
    (hwrite : FdAdapter.write s.datagramAdapter seg = .ok (adapter, ds)) :
    Simulated relay ordered cfg Told n side (s.written seg segs adapter ds) := by
  obtain ⟨h, reached, since, shown, sound, told⟩ := sim
  have plain : seg.Plain := sound.plain.emitted seg (queue ▸ List.mem_cons_self)
  have hqueue : h.conn.segmentsOut = seg :: segs := by
    rw [shown]
    exact queue
  have transmitted : h.transmit = { h with
      conn := { h.conn with segmentsOut := segs }
      wire := h.wire ++ [seg] } := by
    unfold Host.transmit
    rw [hqueue]
  have admits : Admits ordered (Function.update n side h) (.transmit side) :=
    ⟨trivial, fun _ => trivial⟩
  have step : Network.step (Function.update n side h) (.transmit side)
      = .ok (Function.update n side h.transmit) := by
    simp only [Network.step, Function.update_self, Function.update_idem]
  refine ⟨h.transmit, reached.tail admits step, since.tail admits step, ?_,
    ⟨⟨sound.plain.sender, ?_⟩, ?_, sound.isOpen⟩,
    fun done => watch.stays side _ _ _ reached (told done) admits step⟩
  · rw [transmitted, shown]
    rfl
  · intro seg' hseg'
    exact sound.plain.emitted seg' (queue ▸ List.mem_cons_of_mem seg hseg')
  · intro seg' outstanding
    have earlier : relay.Outstanding s.datagramAdapter s.device seg' ∨ seg.SameMessage seg' := by
      rcases outstanding_split outstanding with before | now
      · exact .inl (.inr before)
      · exact (relay.write plain.fits hwrite seg' now).imp_left .inl
    rcases earlier with earlier | same
    · obtain ⟨w, hw, same⟩ := sound.sent seg' earlier
      exact ⟨w, List.mem_append_left _ hw, same⟩
    · exact ⟨seg, List.mem_append_right _ (List.mem_singleton_self seg), same⟩

/-- **Time passes.** -/
theorem Simulated.ticked (watch : Watch ordered cfg Told)
    (sim : Simulated relay ordered cfg Told n side s) (ms : ℕ) :
    Simulated relay ordered cfg Told n side (s.ticked ms) := by
  refine sim.act watch (.tick side ms) (.tick ms) rfl (fun _ => rfl)
    (fun _ _ => ⟨trivial, fun _ => trivial⟩) (List.append_nil _).symm (List.append_nil _).symm rfl
    rfl (fun seg outstanding => ?_) fun still => ⟨still, by simp⟩
  rcases outstanding_split outstanding with before | now
  · exact .inr before
  · exact .inl (relay.tick s.datagramAdapter ms seg now)

/-- **A turn is a run of the network.**  Each call of a rule is one operation at this side, or
several, or none; time is one more at the end of the turn. -/
theorem kept_simulated (watch : Watch ordered cfg Told) {kernel : Kernel D} {start : TCPReceiver}
    (genuine : ∀ seg, relay.Delivers (FdAdapter.bytes A kernel.datagram) seg →
      ∃ w ∈ (n side.peer).wire, w.SameMessage seg)
    (inOrder : ordered → ∀ seg, relay.Delivers (FdAdapter.bytes A kernel.datagram) seg →
      start.FinInOrder seg) :
    Kept (Simulated relay ordered cfg Told n side) kernel start where
  turn s kernel' sim := sim.silent rfl rfl rfl rfl rfl rfl fun _ => id
  datagramIn s s' sim hkernel hstart taken := by
    subst hkernel
    subst hstart
    exact sim.datagramIn watch genuine inOrder taken
  dataIn s s' sim still taken := sim.dataIn watch still taken
  endOutbound s sim := sim.endOutbound watch
  dataOut s s' sim given := sim.dataOut watch given
  written s seg segs adapter ds sim queue hwrite := sim.written watch queue hwrite
  ticked s ms sim := sim.ticked watch ms

end Simulation

/-! ## Two sockets -/

/-- Two sockets, each with its thread. -/
abbrev Pair (A D : Type) := Side → Running A D

/-- A turn of one of the two threads. -/
def Pair.turn (p : Pair A D) (op : Side × Kernel D) :
    Except (LoopFault SocketFault) (Pair A D) :=
  match (p op.1).turn op.2 with
  | .error fault => .error fault
  | .ok r => .ok (Function.update p op.1 r)

/-- **What can happen in a turn.**  The kernel writes honestly, and what is read as a segment is
something that the peer has put on its device. -/
structure Happens (relay : Relay A) (ordered : Prop) (p : Pair A D) (op : Side × Kernel D) :
    Prop where
  honest : op.2.WritesHonestly
  unforged : ∀ seg, relay.Delivers (FdAdapter.bytes A op.2.datagram) seg →
    ∃ d ∈ (p op.1.peer).sock.device, relay.Delivers (FdAdapter.bytes A d) seg
  inOrder : ordered → ∀ seg, relay.Delivers (FdAdapter.bytes A op.2.datagram) seg →
    (p op.1).sock.tcp.receiver.FinInOrder seg

/-- The thread has just been started, with an adapter that has nothing to send. -/
def Begins (relay : Relay A) (cfg : TCPConfig) (r : Running A D) : Prop :=
  ∃ config made kernel, relay.Fresh made ∧
    (connect cfg config made kernel = .ok r ∨ r = listenAndAccept cfg config made kernel)

variable {relay : Relay A} {ordered : Prop} {cfg : Side → TCPConfig}
variable {Told : Side → Network → Prop}

/-- The adapter does not matter to the loop. -/
theorem Begins.opens {cfg : TCPConfig} {r : Running A D} (h : Begins relay cfg r) : Opens r := by
  obtain ⟨config, made, kernel, -, connected | listening⟩ := h
  · exact .inl ⟨cfg, config, made, kernel, connected⟩
  · exact .inr ⟨cfg, config, made, kernel, listening⟩

/-- **A thread begins where a host of the network can be**: nothing has happened, or `connect` has
been called. -/
theorem Begins.simulated {n : Network} {side : Side} {r : Running A D}
    (watch : Watch ordered cfg Told) (h : Begins relay (cfg side) r)
    (reached : GuardedRun Network.step (Admits ordered) (Network.start cfg) n)
    (fresh : n side = Host.new (cfg side)) : Simulated relay ordered cfg Told n side r.sock := by
  obtain ⟨config, made, kernel, nothing, begun⟩ := h
  have initial : ∀ adapter : A, (∀ seg, relay.Held adapter seg → relay.Held made.1 seg) →
      Simulated relay ordered cfg Told n side
        (initializeTCP (cfg side) adapter made.2 kernel) := by
    intro adapter held
    have same : Function.update n side (n side) = n := Function.update_eq_self side n
    refine ⟨n side, ?_, ?_, ?_, ⟨TCPConnection.plain_new (cfg side), ?_, fun _ => rfl⟩,
      fun told => nomatch told⟩
    · rw [same]
      exact reached
    · rw [same]
      exact .refl
    · rw [fresh]
      rfl
    · intro seg outstanding
      exact absurd (outstanding.imp_left (held seg)) (nothing seg)
  rcases begun with connected | rfl
  · have before := initial (FdAdapter.setConfig made.1 config) fun seg => relay.setConfig
    rw [connect] at connected
    simp only at connected
    split at connected
    · cases connected
    · cases connected
      exact before.act watch (.connect side) .connect rfl (fun _ => rfl)
        (fun _ _ => ⟨trivial, fun _ => trivial⟩) (List.append_nil _).symm (List.append_nil _).symm
        rfl rfl (fun _ => id) fun still => ⟨still, by simp⟩
  · exact initial (FdAdapter.setListening (FdAdapter.setConfig made.1 config) true) fun seg held =>
      relay.setConfig (relay.setListening held)

/-- **The relation between the two levels.**  The network is in a state that it can reach, and
each socket shows one of its hosts. -/
structure Refined (relay : Relay A) (ordered : Prop) (cfg : Side → TCPConfig)
    (Told : Side → Network → Prop) (p : Pair A D) (n : Network) : Prop where
  reached : GuardedRun Network.step (Admits ordered) (Network.start cfg) n
  shown : ∀ side, (p side).sock.Shows (n side)
  sound : ∀ side, (p side).sock.Sound relay
  told : ∀ side, (p side).sock.inboundShutdown = true → Told side n

/-- What was known stays known during a turn. -/
theorem Watch.since (watch : Watch ordered cfg Told) {n n' : Network} {side : Side}
    (reached : GuardedRun Network.step (Admits ordered) (Network.start cfg) n)
    (since : GuardedRun Network.step (Admits ordered) n n') (told : Told side n) :
    Told side n' := by
  have both := since.invariant
    (fun n => GuardedRun Network.step (Admits ordered) (Network.start cfg) n ∧ Told side n)
    ⟨reached, told⟩ fun n op n' before admits step =>
      ⟨before.1.tail admits step, watch.stays side n op n' before.1 before.2 admits step⟩
  exact both.2

/-- **A socket moves, and its host with it.** -/
theorem Refined.update (watch : Watch ordered cfg Told) {p : Pair A D} {n : Network}
    (refined : Refined relay ordered cfg Told p n) {side : Side} {r : Running A D}
    (sim : Simulated relay ordered cfg Told n side r.sock) :
    ∃ n', Refined relay ordered cfg Told (Function.update p side r) n' := by
  obtain ⟨h, reached, since, shown, sound, told⟩ := sim
  have both : ∀ side', (Function.update p side r side').sock.Shows (Function.update n side h side') ∧
      (Function.update p side r side').sock.Sound relay ∧
      ((Function.update p side r side').sock.inboundShutdown = true →
        Told side' (Function.update n side h)) := by
    intro side'
    rcases side.eq_or_eq_peer side' with rfl | rfl
    · simp only [Function.update_self]
      exact ⟨shown, sound, told⟩
    · simp only [Function.update_of_ne side.peer_ne]
      exact ⟨refined.shown _, refined.sound _,
        fun done => watch.since refined.reached since (refined.told _ done)⟩
  exact ⟨_, reached, fun side' => (both side').1, fun side' => (both side').2.1,
    fun side' => (both side').2.2⟩

/-- Both threads begin. -/
theorem refined_start (watch : Watch ordered cfg Told) {p : Pair A D}
    (begins : ∀ side, Begins relay (cfg side) (p side)) :
    ∃ n, Refined relay ordered cfg Told p n := by
  -- first one side, then the other, which is still as new
  obtain ⟨h, reached, -, shown, sound, told⟩ := (begins .a).simulated watch .refl rfl
  have fresh : Function.update (Network.start cfg) .a h .b = Host.new (cfg .b) := rfl
  obtain ⟨h', reached', since', shown', sound', told'⟩ :=
    (begins .b).simulated watch reached fresh
  refine ⟨_, reached', fun side => ?_, fun side => ?_, fun side => ?_⟩
  · cases side with
    | a => exact shown
    | b => exact shown'
  · cases side with
    | a => exact sound
    | b => exact sound'
  · cases side with
    | a => exact fun done => watch.since reached since' (told done)
    | b => exact told'

/-- A turn of one thread keeps both in step with the network. -/
theorem Refined.turn (watch : Watch ordered cfg Told) (lawful : FdAdapter.Lawful A)
    {p p' : Pair A D} {n : Network} {op : Side × Kernel D} {names : List RuleName}
    (refined : Refined relay ordered cfg Told p n)
    (between : Between (fun _ => True) names (p op.1)) (happens : Happens relay ordered p op)
    (turned : Pair.turn p op = .ok p') :
    (∃ n', Refined relay ordered cfg Told p' n') ∧
      ∃ r left, p' = Function.update p op.1 r ∧ Between (fun _ => True) left r := by
  obtain ⟨side, kernel⟩ := op
  have genuine : ∀ seg, relay.Delivers (FdAdapter.bytes A kernel.datagram) seg →
      ∃ w ∈ (n side.peer).wire, w.SameMessage seg := by
    intro seg delivers
    obtain ⟨d, hd, delivers'⟩ := happens.unforged seg delivers
    rw [refined.shown side.peer]
    exact (refined.sound side.peer).sent seg (.inr ⟨d, hd, delivers'⟩)
  have here : Simulated relay ordered cfg Told n side (p side).sock := by
    refine ⟨n side, ?_, ?_, refined.shown side, refined.sound side, ?_⟩ <;>
      rw [Function.update_eq_self]
    · exact refined.reached
    · exact .refl
    · exact refined.told side
  have kept : Kept (Simulated relay ordered cfg Told n side) kernel (p side).sock.tcp.receiver :=
    kept_simulated watch genuine happens.inOrder
  rcases (turn_meets kept happens.honest lawful
      ⟨here, between.sublist, between.eventloop⟩).cases with
    ⟨r, hturn, left, after⟩ | ⟨fault, hturn, -⟩
  · rw [Pair.turn, hturn] at turned
    cases turned
    exact ⟨refined.update watch after.between.inv,
      r, left, rfl, trivial, after.between.sublist, after.between.eventloop⟩
  · rw [Pair.turn, hturn] at turned
    cases turned

/-- **Every run of two sockets is a run of the network**, for any adapters and whatever the kernel,
the owners and the carrier of the datagrams do. -/
theorem refines (watch : Watch ordered cfg Told) (lawful : FdAdapter.Lawful A) {p₀ p : Pair A D}
    (begins : ∀ side, Begins relay (cfg side) (p₀ side))
    (run : GuardedRun Pair.turn (Happens relay ordered) p₀ p) :
    ∃ n, Refined relay ordered cfg Told p n := by
  have both : (∃ n, Refined relay ordered cfg Told p n) ∧
      ∀ side, ∃ names, Between (fun _ => True) names (p side) := by
    refine run.invariant (fun p => (∃ n, Refined relay ordered cfg Told p n) ∧
      ∀ side, ∃ names, Between (fun _ => True) names (p side))
      ⟨refined_start watch begins, fun side => ⟨_, (begins side).opens.between trivial⟩⟩ ?_
    rintro p op p' ⟨⟨n, refined⟩, between⟩ happens turned
    obtain ⟨names, here⟩ := between op.1
    obtain ⟨refined', r, left, rfl, after⟩ := refined.turn watch lawful here happens turned
    refine ⟨refined', fun side => ?_⟩
    rcases op.1.eq_or_eq_peer side with rfl | rfl
    · rw [Function.update_self]
      exact ⟨left, after⟩
    · rw [Function.update_of_ne op.1.peer_ne]
      exact between _
  exact both.1

/-- Nothing in particular is watched. -/
theorem watch_true (ordered : Prop) : Watch ordered cfg fun _ _ => True :=
  ⟨fun _ _ _ _ => trivial, fun _ _ _ _ _ _ _ _ => trivial⟩

/-! ## Two sockets over UDP -/

/-- Two sockets over UDP. -/
abbrev UDPPair := Pair TCPOverUDPSocketAdapter (Address × List UInt8)

/-- A turn of a thread: what `poll` finds, which of the peer's datagrams is there to be read, and
what the owner has written. -/
structure Event where
  side : Side
  poll : List Revents
  index : ℕ := 0
  data : List UInt8 := []

/-- The addresses of the two sides. -/
def addressOf : Side → Address
  | .a => ⟨1, 1000⟩
  | .b => ⟨2, 80⟩

namespace Event

/-- The datagram that is there to be read. -/
def payload (e : Event) (p : UDPPair) : List UInt8 :=
  (((p e.side.peer).sock.device[e.index]?).map (·.2)).getD []

/-- What the kernel answers in the turn. -/
def kernel (e : Event) (p : UDPPair) : Kernel (Address × List UInt8) :=
  { plainly (.ready e.poll) [] with
    datagram := (addressOf e.side.peer, e.payload p)
    data := { returned := e.data.length, errno := 0, data := e.data } }

/-- No FIN overtakes the byte in front of it. -/
def InOrder (p : UDPPair) (e : Event) : Prop :=
  ∀ seg ∈ TCPOverUDPSocketAdapter.segmentOf (e.payload p),
    (p e.side).sock.tcp.receiver.FinInOrder seg

instance (p : UDPPair) (e : Event) : Decidable (e.InOrder p) :=
  inferInstanceAs (Decidable (∀ seg ∈ TCPOverUDPSocketAdapter.segmentOf _, _))

/-- An event can happen. -/
theorem happens {ordered : Prop} (p : UDPPair) (e : Event) (inOrder : ordered → e.InOrder p) :
    Happens TCPOverUDPSocketAdapter.relay ordered p (e.side, e.kernel p) where
  honest := ⟨honest_takesPage, (honest_plainly .timeout []).narrow⟩
  unforged seg delivers := by
    have hseg : TCPOverUDPSocketAdapter.segmentOf (e.payload p) = some seg := delivers
    unfold payload at hseg
    cases hd : (p e.side.peer).sock.device[e.index]? with
    | none =>
        have nothing : TCPOverUDPSocketAdapter.segmentOf [] = none := by decide +kernel
        rw [hd, Option.map_none, Option.getD_none, nothing] at hseg
        cases hseg
    | some d =>
        rw [hd] at hseg
        exact ⟨d, List.mem_of_getElem? hd, hseg⟩
  inOrder required seg delivers := inOrder required seg delivers

end Event

/-- The event happens. -/
def happen (p : UDPPair) (e : Event) : Except (LoopFault SocketFault) UDPPair :=
  p.turn (e.side, e.kernel p)

/-- A run of events is a run of the two sockets. -/
theorem run_of_events {p p' : UDPPair} {es : List Event} {ordered : Prop}
    (admitted : Admitted happen (fun p e => ordered → e.InOrder p) p es)
    (done : execute happen p es = .ok p') :
    GuardedRun Pair.turn (Happens TCPOverUDPSocketAdapter.relay ordered) p p' :=
  (GuardedRun.of_execute admitted done).translate (fun p (e : Event) => (e.side, e.kernel p))
    (fun _ _ => rfl) fun p e inOrder => e.happens p inOrder

/-- Sequence numbers that can be told apart. -/
def udpConfig : Side → TCPConfig
  | .a => { fixedIsn := ⟨10⟩ }
  | .b => { fixedIsn := ⟨20⟩ }

/-- One side has called `connect`, the other `listen_and_accept`. -/
def callerAndCallee : UDPPair
  | .a =>
      { sock := { initializeTCP (udpConfig .a)
          { config := { source := addressOf .a, destination := addressOf .b } } []
          (plainly .timeout []) with tcp := (TCPConnection.new (udpConfig .a)).connect }
        eventloop := rules
        baseTime := 0
        phase := .connecting }
  | .b => listenAndAccept (udpConfig .b) { source := addressOf .b } ({}, []) (plainly .timeout [])

/-- Both are as they are made. -/
theorem callerAndCallee_begins (side : Side) :
    Begins TCPOverUDPSocketAdapter.relay (udpConfig side) (callerAndCallee side) := by
  have fresh : TCPOverUDPSocketAdapter.relay.Fresh ({}, []) := Relay.fresh_direct {}
  cases side with
  | a =>
      refine ⟨{ source := addressOf .a, destination := addressOf .b }, ({}, []),
        plainly .timeout [], fresh, .inl ?_⟩
      exact connect_ok _ _ _ _
  | b => exact ⟨_, ({}, []), plainly .timeout [], fresh, .inr rfl⟩

/-- The handshake, up to the last acknowledgment of the caller. -/
def handshake : List Event :=
  [{ side := .a, poll := [{}, {}, {}, { pollout := true }] },
    { side := .b, poll := [{ pollin := true }] },
    { side := .b, poll := [{}, {}, {}, { pollout := true }] },
    { side := .a, poll := [{ pollin := true }] },
    { side := .a, poll := [] }]

/-! ## The refinement -/

/-- **Two sockets refine the network of two connections.**  Whatever the threads, the owners, the
kernel and the carrier do, the connections, the bytes taken from and given to the owners and the
segments handed to the adapters are those of a run of the network in which no owner writes after
the end of its stream. -/
theorem sockets_refine_network (lawful : FdAdapter.Lawful A) {p₀ p : Pair A D}
    (begins : ∀ side, Begins relay (cfg side) (p₀ side))
    (run : GuardedRun Pair.turn (Happens relay False) p₀ p) :
    ∃ n, GuardedRun Network.step Network.NoWriteAfterEnd (Network.start cfg) n ∧
      ∀ side, (n side).conn = (p side).sock.tcp ∧ (n side).accepted = (p side).sock.fromOwner ∧
        (n side).popped = (p side).sock.toOwner ∧ (n side).wire = (p side).sock.wire := by
  obtain ⟨n, refined⟩ := refines (watch_true False) lawful begins run
  refine ⟨n, refined.reached.mono fun _ _ h => h.1, ?_⟩
  intro side
  rw [refined.shown side]
  exact ⟨rfl, rfl, rfl, rfl⟩

theorem sockets_refine_network_handshake :
    ∃ p, execute happen callerAndCallee handshake = .ok p ∧ (p .a).phase = .main ∧
      ∃ n, GuardedRun Network.step Network.NoWriteAfterEnd (Network.start udpConfig) n ∧
        ∀ side, (n side).conn = (p side).sock.tcp := by
  obtain ⟨p, done, main⟩ : ∃ p, execute happen callerAndCallee handshake = .ok p ∧
      (p .a).phase = .main := EndsIn.exists_ok (by decide +kernel)
  have admitted : Admitted happen (fun p e => False → e.InOrder p) callerAndCallee handshake :=
    admitted_of_forall (fun _ _ => False.elim) _ _
  obtain ⟨n, run, shown⟩ := sockets_refine_network TCPOverUDPSocketAdapter.lawful
    callerAndCallee_begins (run_of_events admitted done)
  exact ⟨p, done, main, n, run, fun side => (shown side).1⟩

end TCPSpongeSocket

end Sponge
