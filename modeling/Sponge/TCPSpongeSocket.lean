import Sponge.EventLoop
import Sponge.FdAdapter
import Sponge.TCPConnection

/-!
# The socket

Embedding of `TCPSpongeSocket` of `libsponge/tcp_helpers/tcp_sponge_socket.{hh,cc}`: a
connection between a pipe to its owner and an adapter to the network, with an event loop
that moves what there is to move.  The code is generic in the adapter, and so is the model.

There are four rules.  They work on the members that the callbacks capture
(`TCPSpongeSocket`), to which are added the answers of the kernel in this turn of the loop
and the history of what went in and out.  `Running` is the thread: the socket, the rules
that are left, the loop it is in and the time of the last tick.

Each callback is taken apart by one lemma (`datagramIn_meets` and so on), and these are all
that is used of them later.

### The kernel in the state

A callback is a function of the state alone, so what the system calls return has to be in
the state.  `kernel` holds the answers for one turn and is exchanged at the beginning of
each.  One answer for each call is enough, because a turn calls each rule at most once;
`writev` is a function, because one `write` may make several calls.  The answer includes
what other threads do: whether the owner has asked the thread to stop, and the time.

### History

`fromOwner`, `toOwner`, `wire` and `device` are not in the source.  They are written by the
callbacks and read by none of them, and are there because what the owners see is about all
that ever went through the pipe.

### Three loops

The thread of the owner runs the loop of `connect` or of `listen_and_accept`, and the thread
of the socket then runs that of `_tcp_main`.  They are one function, `_tcp_loop`, with
different conditions, and never run at the same time.  So there is one system with a
`Phase`, in which a turn either goes through the loop's body or moves on to the next phase.
-/

namespace Sponge

open EventLoop

/-- The exceptions that leave a callback, or `connect`. -/
inductive SocketFault where
  | adapter (fault : AdapterFault)
  | connection (fault : Fault)
  | read (fault : ReadFault)
  | write (fault : WriteFault)
  /-- `unix_error("shutdown")`, with the `errno`. -/
  | shutdown (errno : ℤ)
  | acceptedLess
  /-- `connect` did not lead to SYN_SENT. -/
  | notSynSent
  deriving Repr, DecidableEq

/-- The texts.  That of `notSynSent` goes on with the names of the two states. -/
def SocketFault.what : SocketFault → String
  | .adapter fault => fault.what
  | .connection fault => fault.what
  | .read fault => fault.what
  | .write fault => fault.what
  | .shutdown _ => "shutdown: "
  | .acceptedLess => "TCPConnection::write() accepted less than advertised length"
  | .notSynSent => "After TCPConnection::connect(), state was "

/-- What the kernel answers in one turn of the loop.  The answers are fixed before the turn, and
used only if the turn asks for them; a run is then a list of answers. -/
structure Kernel (D : Type) where
  poll : PollAnswer
  /-- What the device hands over, should it be read. -/
  datagram : D
  /-- What the pipe from the owner hands over, should it be read. -/
  data : ReadAnswer
  writev : Writev
  shutdown : Answer
  /-- Has the owner asked the thread to stop? -/
  abort : Bool
  /-- `timestamp_ms`, after the events have been handled. -/
  now : ℕ

/-- The answers of the kernel to a write: it takes some of the bytes, at least one if there is
one. -/
structure Kernel.WritesHonestly {D : Type} (kernel : Kernel D) : Prop where
  writev : Honest kernel.writev
  narrow : ∀ call iovecs, (kernel.writev call iovecs).returned < 2 ^ 31

/-- `TCPSpongeSocket`, once it has a connection. -/
structure TCPSpongeSocket (A D : Type) where
  tcp : TCPConnection
  datagramAdapter : A
  threadData : FDWrapper := {}
  inboundShutdown : Bool := false
  outboundShutdown : Bool := false
  fullyAcked : Bool := false
  kernel : Kernel D
  /-- The bytes read from the pipe. -/
  fromOwner : List UInt8 := []
  /-- The bytes written to the pipe. -/
  toOwner : List UInt8 := []
  /-- The segments given to the adapter. -/
  wire : List TCPSegment := []
  /-- What the adapter has put on its device. -/
  device : List D := []

namespace TCPConnection

/-- `remaining_outbound_capacity`. -/
def remainingOutboundCapacity (c : TCPConnection) : ℕ := c.sender.stream.remainingCapacity

/-- `inbound_stream().pop_output(len)`. -/
def popInbound (c : TCPConnection) (len : ℕ) : TCPConnection :=
  { c with receiver := { c.receiver with
      reassembler := { c.receiver.reassembler with
        output := c.receiver.streamOut.popOutput len } } }

/-- To pop is to read and to forget what was read. -/
theorem popInbound_eq (c : TCPConnection) (len : ℕ) : c.popInbound len = (c.readInbound len).2 := by
  have pop : ∀ b : ByteStream, b.popOutput (min len b.bufferSize) = b.popOutput len := by
    intro b
    simp only [ByteStream.popOutput, min_assoc, min_self]
  simp only [popInbound, readInbound, TCPReceiver.readOut, StreamReassembler.readOut,
    ByteStream.read, pop]
  rfl

/-- The window of a new sender has room for the SYN alone. -/
theorem fillWindow_new (capacity : ℕ) (retxTimeout : UInt16) (isn : WrappingInt32) :
    (TCPSender.new capacity retxTimeout isn).fillWindow
      = ((TCPSender.new capacity retxTimeout isn).fillStep 1 {}).1 := by
  have going : (TCPSender.new capacity retxTimeout isn).isTransmissionEnded ≠ true :=
    Bool.false_ne_true
  show TCPSender.fillLoop 1 (TCPSender.new capacity retxTimeout isn) {} = _
  rw [TCPSender.fillLoop, if_neg going, dif_neg]
  rintro ⟨more, -⟩
  cases more

/-- **A new connection that connects is in SYN_SENT.** -/
theorem connect_state (cfg : TCPConfig) :
    (new cfg).connect.state = TCPState.ofState .synSent := by
  have filled := fillWindow_new cfg.sendCapacity cfg.rtTimeout cfg.fixedIsn
  have hsender : (new cfg).connect.sender = { (TCPSender.new cfg.sendCapacity cfg.rtTimeout
      cfg.fixedIsn).fillWindow with segmentsOut := [] } := rfl
  have active : (new cfg).connect.active = true := by
    unfold active
    rw [hsender, filled]
    show (if false = true then false else _) = true
    simp only [Bool.false_eq_true, if_false]
    -- it lingers, or else the SYN is in flight
    split
    · rfl
    · rfl
  rw [state, active, hsender, filled]
  rfl

/-- **The ports and the checksum do not matter** to a connection.  An adapter changes them on the
way, so what one connection receives is what the other sent in this sense only. -/
theorem segmentReceived_sameMessage (c : TCPConnection) {seg seg' : TCPSegment}
    (same : seg.SameMessage seg') : c.segmentReceived seg' = c.segmentReceived seg := by
  obtain ⟨header', payload'⟩ := seg'
  obtain ⟨hpayload, sport, dport, cksum, hheader⟩ := same
  cases hpayload
  cases hheader
  rfl

end TCPConnection

namespace TCPSpongeSocket

variable {A D : Type}

/-! ## The pipe -/

/-- There will be nothing more from the owner. -/
def endOutbound (s : TCPSpongeSocket A D) : TCPSpongeSocket A D :=
  { s with tcp := s.tcp.endInputStream, outboundShutdown := true }

/-- The bytes have been read from the pipe and written into the outbound stream. -/
def accepted (s : TCPSpongeSocket A D) (data : List UInt8) (threadData : FDWrapper) :
    TCPSpongeSocket A D :=
  { s with
    threadData := threadData
    tcp := (s.tcp.write data).2
    fromOwner := s.fromOwner ++ data }

/-- Rule 2: read from pipe into outbound buffer. -/
def dataIn : Rule (TCPSpongeSocket A D) SocketFault where
  fd s := s.threadData
  direction := .In
  callback s :=
    match s.threadData.read s.tcp.remainingOutboundCapacity s.kernel.data with
    | .error fault => .error (.read fault)
    | .ok (data, threadData) =>
        if (s.tcp.write data).1 ≠ data.length then .error .acceptedLess
        else if threadData.eof then .ok (s.accepted data threadData).endOutbound
        else .ok (s.accepted data threadData)
  interest s :=
    s.tcp.active && !s.outboundShutdown && decide (0 < s.tcp.remainingOutboundCapacity)
  cancel s := .ok s.endOutbound

/-- **Rule 2 has been called.** -/
def DataTaken (s s' : TCPSpongeSocket A D) : Prop :=
  ∃ data threadData, FDWrapper.HasRead s.tcp.remainingOutboundCapacity s.threadData data threadData ∧
    (s.tcp.write data).1 = data.length ∧
    s' = if threadData.eof then (s.accepted data threadData).endOutbound
      else s.accepted data threadData

/-- Rule 2 throws what the read throws: what was read is never more than there was room for. -/
theorem dataIn_meets (s : TCPSpongeSocket A D) :
    Meets (dataIn.callback s) (DataTaken s) fun fault => ∃ f, fault = .read f := by
  simp only [dataIn]
  rcases hread : s.threadData.read s.tcp.remainingOutboundCapacity s.kernel.data with
    fault | ⟨data, threadData⟩
  · exact ⟨fault, rfl⟩
  have hasRead := FDWrapper.read_ok hread
  have all : (s.tcp.write data).1 = data.length := by
    show min data.length s.tcp.remainingOutboundCapacity = data.length
    exact min_eq_left hasRead.length_le
  simp only [all, ne_eq, not_true_eq_false, if_false]
  have taken : DataTaken s (if threadData.eof then (s.accepted data threadData).endOutbound
      else s.accepted data threadData) := ⟨data, threadData, hasRead, all, rfl⟩
  split
  · next eof =>
    rw [if_pos eof] at taken
    exact taken
  · next more =>
    rw [if_neg more] at taken
    exact taken

/-- The inbound stream has nothing more to give. -/
def inboundDone (s : TCPSpongeSocket A D) : Bool :=
  s.tcp.receiver.streamOut.eof || s.tcp.receiver.streamOut.error

/-- What rule 3 offers to the pipe. -/
def inboundBytes (s : TCPSpongeSocket A D) : List UInt8 :=
  s.tcp.receiver.streamOut.peekOutput (min 65536 s.tcp.receiver.streamOut.bufferSize)

/-- The pipe to the owner is shut down. -/
def shutInbound (s : TCPSpongeSocket A D) : Except SocketFault (TCPSpongeSocket A D) :=
  match systemCall (asInt s.kernel.shutdown.returned) s.kernel.shutdown.errno 0 with
  | .error _ => .error (.shutdown s.kernel.shutdown.errno)
  | .ok _ => .ok { s with threadData := s.threadData.shutdown .wr, inboundShutdown := true }

/-- The first bytes of the inbound stream have been written to the pipe. -/
def handedOver (s : TCPSpongeSocket A D) (bytesWritten : ℕ) (written : List UInt8)
    (threadData : FDWrapper) : TCPSpongeSocket A D :=
  { s with
    threadData := threadData
    tcp := s.tcp.popInbound bytesWritten
    toOwner := s.toOwner ++ written }

/-- Rule 3: read from inbound buffer into pipe. -/
def dataOut : Rule (TCPSpongeSocket A D) SocketFault where
  fd s := s.threadData
  direction := .Out
  callback s :=
    match s.threadData.write s.kernel.writev s.inboundBytes with
    | .error fault => .error (.write fault)
    | .ok (bytesWritten, written, threadData) =>
        let s := s.handedOver bytesWritten written threadData
        if s.inboundDone then s.shutInbound else .ok s
  interest s :=
    !s.tcp.receiver.streamOut.bufferEmpty || (s.inboundDone && !s.inboundShutdown)

/-- **Rule 3 has been called.** -/
def DataGiven (s s' : TCPSpongeSocket A D) : Prop :=
  ∃ n ≤ s.inboundBytes.length,
    let s₁ := s.handedOver n (s.inboundBytes.take n) s.threadData.registerWrite
    s' = if s₁.inboundDone then
        { s₁ with threadData := s₁.threadData.shutdown .wr, inboundShutdown := true }
      else s₁

/-- Rule 3 throws what `shutdown` throws. -/
theorem dataOut_meets (s : TCPSpongeSocket A D) (honest : s.kernel.WritesHonestly) :
    Meets (dataOut.callback s) (DataGiven s) fun fault => ∃ errno, fault = .shutdown errno := by
  have short : s.inboundBytes.length < 2 ^ 63 := by
    rw [inboundBytes, ByteStream.peekOutput, List.length_take]
    omega
  obtain ⟨n, enough, -, hwrite⟩ :=
    FDWrapper.write_honest honest.writev honest.narrow s.threadData short
  simp only [dataOut, hwrite]
  set s₁ := s.handedOver n (s.inboundBytes.take n) s.threadData.registerWrite with hs₁
  have given : DataGiven s (if s₁.inboundDone then
        { s₁ with threadData := s₁.threadData.shutdown .wr, inboundShutdown := true }
      else s₁) := ⟨n, enough, rfl⟩
  by_cases done : s₁.inboundDone = true
  · rw [if_pos done] at given ⊢
    rw [shutInbound]
    rcases systemCall (asInt s₁.kernel.shutdown.returned) s₁.kernel.shutdown.errno 0 with
      fault | returned
    · exact ⟨_, rfl⟩
    · exact given
  · rw [if_neg done] at given ⊢
    exact given

/-! ## The device -/

/-- The segment goes to the connection. -/
def take (s : TCPSpongeSocket A D) : Option TCPSegment → Except SocketFault (TCPSpongeSocket A D)
  | none => .ok s
  | some seg =>
      match s.tcp.segmentReceived seg with
      | .error fault => .error (.connection fault)
      | .ok tcp => .ok { s with tcp := tcp }

/-- The outbound stream is found to be fully acknowledged. -/
def noteAcked (s : TCPSpongeSocket A D) : TCPSpongeSocket A D :=
  if s.threadData.eof && s.tcp.sender.bytesInFlight == 0 && !s.fullyAcked then
    { s with fullyAcked := true }
  else s

/-- It notes this, and does nothing else. -/
theorem noteAcked_frame (s : TCPSpongeSocket A D) :
    s.noteAcked = { s with fullyAcked := s.noteAcked.fullyAcked } := by
  unfold noteAcked
  split <;> rfl

variable [FdAdapter A D]

/-- Rule 1: read from filtered packet stream and dump into TCPConnection. -/
def datagramIn : Rule (TCPSpongeSocket A D) SocketFault where
  fd s := FdAdapter.fd s.datagramAdapter
  direction := .In
  callback s :=
    match FdAdapter.read s.datagramAdapter s.kernel.datagram with
    | .error fault => .error (.adapter fault)
    | .ok (seg, adapter, ds) =>
        ({ s with datagramAdapter := adapter, device := s.device ++ ds }.take seg).map noteAcked
  interest s := s.tcp.active

/-- **Rule 1 has been called.** -/
def DatagramTaken (s s' : TCPSpongeSocket A D) : Prop :=
  ∃ out adapter ds, FdAdapter.read s.datagramAdapter s.kernel.datagram = .ok (out, adapter, ds) ∧
    ((out = none ∧ s'.tcp = s.tcp) ∨
      ∃ seg, out = some seg ∧ s.tcp.segmentReceived seg = .ok s'.tcp) ∧
    s' = { s with
      datagramAdapter := adapter
      device := s.device ++ ds
      tcp := s'.tcp
      fullyAcked := s'.fullyAcked }

/-- Rule 1 throws what the adapter or the connection throws. -/
theorem datagramIn_meets (s : TCPSpongeSocket A D) :
    Meets (datagramIn.callback s) (DatagramTaken s)
      fun fault => (∃ f, fault = .adapter f) ∨ ∃ f, fault = .connection f := by
  simp only [datagramIn]
  rcases hread : FdAdapter.read s.datagramAdapter s.kernel.datagram with
    fault | ⟨out, adapter, ds⟩
  · exact .inl ⟨fault, rfl⟩
  cases out with
  | none =>
      have frame := noteAcked_frame { s with datagramAdapter := adapter, device := s.device ++ ds }
      simp only [take, Except.map]
      refine ⟨none, adapter, ds, hread, .inl ⟨rfl, ?_⟩, ?_⟩
      · rw [frame]
      · rw [frame]
  | some seg =>
      simp only [take]
      rcases htcp : s.tcp.segmentReceived seg with fault | tcp
      · exact .inr ⟨fault, rfl⟩
      have frame := noteAcked_frame
        { s with datagramAdapter := adapter, device := s.device ++ ds, tcp := tcp }
      simp only [Except.map]
      refine ⟨some seg, adapter, ds, hread, .inr ⟨seg, rfl, ?_⟩, ?_⟩
      · rw [frame]
        exact htcp
      · rw [frame]

/-- The segments are written to the adapter, one after the other. -/
def writeSegments (s : TCPSpongeSocket A D) :
    List TCPSegment → Except SocketFault (TCPSpongeSocket A D)
  | [] => .ok s
  | seg :: segs =>
      match FdAdapter.write s.datagramAdapter seg with
      | .error fault => .error (.adapter fault)
      | .ok (adapter, ds) =>
          { s with
            datagramAdapter := adapter
            tcp := { s.tcp with segmentsOut := segs }
            wire := s.wire ++ [seg]
            device := s.device ++ ds }.writeSegments segs

/-- Rule 4: read outbound segments from TCPConnection and send as datagrams. -/
def datagramOut : Rule (TCPSpongeSocket A D) SocketFault where
  fd s := FdAdapter.fd s.datagramAdapter
  direction := .Out
  callback s := s.writeSegments s.tcp.segmentsOut
  interest s := !s.tcp.segmentsOut.isEmpty

/-- A segment has been written to the adapter. -/
def written (s : TCPSpongeSocket A D) (seg : TCPSegment) (segs : List TCPSegment) (adapter : A)
    (ds : List D) : TCPSpongeSocket A D :=
  { s with
    datagramAdapter := adapter
    tcp := { s.tcp with segmentsOut := segs }
    wire := s.wire ++ [seg]
    device := s.device ++ ds }

/-- **Rule 4**: what is kept by every write to the adapter is kept.  It throws what the adapter
throws. -/
theorem writeSegments_meets {P : TCPSpongeSocket A D → Prop}
    (kept : ∀ s seg segs adapter ds, P s → s.tcp.segmentsOut = seg :: segs →
      FdAdapter.write s.datagramAdapter seg = .ok (adapter, ds) →
        P (s.written seg segs adapter ds))
    {s : TCPSpongeSocket A D} (h : P s) :
    Meets (datagramOut.callback s) (fun s' => P s' ∧ s'.tcp.segmentsOut = [])
      fun fault => ∃ f, fault = .adapter f := by
  show Meets (s.writeSegments s.tcp.segmentsOut) _ _
  -- the queue is the list that the loop goes through
  suffices all : ∀ (segs : List TCPSegment) (s : TCPSpongeSocket A D), P s →
      s.tcp.segmentsOut = segs → Meets (s.writeSegments segs)
        (fun s' => P s' ∧ s'.tcp.segmentsOut = []) fun fault => ∃ f, fault = .adapter f from
    all s.tcp.segmentsOut s h rfl
  intro segs
  induction segs with
  | nil => exact fun s h queue => ⟨h, queue⟩
  | cons seg segs ih =>
      intro s h queue
      rw [writeSegments]
      rcases hwrite : FdAdapter.write s.datagramAdapter seg with fault | ⟨adapter, ds⟩
      · exact ⟨fault, rfl⟩
      · exact ih (s.written seg segs adapter ds) (kept s seg segs adapter ds h queue hwrite) rfl

/-- The rules that `_initialize_TCP` adds. -/
def rules : List (Rule (TCPSpongeSocket A D) SocketFault) :=
  [datagramIn, dataIn, dataOut, datagramOut]

/-! ## The thread -/

/-- Which loop the thread is in.  The loops differ in what they wait for and in what ends them;
the rules are the same. -/
inductive Phase where
  /-- The loop of `connect`. -/
  | connecting
  /-- The loop of `listen_and_accept`. -/
  | accepting
  /-- The loop of `_tcp_main`. -/
  | main
  | ended
  deriving Repr, DecidableEq

/-- The socket in the course of its loops. -/
structure Running (A D : Type) where
  sock : TCPSpongeSocket A D
  eventloop : List (Rule (TCPSpongeSocket A D) SocketFault)
  baseTime : ℕ
  phase : Phase

/-- The condition of the loop. -/
def Phase.condition (c : TCPConnection) : Phase → Bool
  | .connecting => c.state = TCPState.ofState .synSent
  | .accepting =>
      c.state = TCPState.ofState .listen ∨ c.state = TCPState.ofState .synRcvd ∨
        c.state = TCPState.ofState .synSent
  | .main => true
  | .ended => false

/-- What comes after the loop. -/
def Phase.next : Phase → Phase
  | .connecting | .accepting => .main
  | .main | .ended => .ended

/-- The loop is left, and the next one begins. -/
def Running.leave (r : Running A D) (now : ℕ) : Running A D :=
  { r with phase := r.phase.next, baseTime := now }

/-- The connection and the adapter are told of the time that has passed. -/
def ticked (s : TCPSpongeSocket A D) (ms : ℕ) : TCPSpongeSocket A D :=
  { s with
    tcp := s.tcp.tick ms
    datagramAdapter := (FdAdapter.tick s.datagramAdapter ms).1
    device := s.device ++ (FdAdapter.tick s.datagramAdapter ms).2 }

/-- The time since the last tick has passed. -/
def Running.tick (r : Running A D) (now : ℕ) : Running A D :=
  { r with sock := r.sock.ticked (sub64 now r.baseTime), baseTime := now }

/-- One turn of `_tcp_loop`. -/
def Running.turn (r : Running A D) (kernel : Kernel D) :
    Except (LoopFault SocketFault) (Running A D) :=
  if r.phase.condition r.sock.tcp then
    match waitNextEvent r.eventloop { r.sock with kernel := kernel } kernel.poll with
    | .error fault => .error fault
    | .ok (ret, eventloop, sock) =>
        let r := { r with sock := sock, eventloop := eventloop }
        if ret = .Exit ∨ kernel.abort = true then .ok (r.leave kernel.now)
        else if r.sock.tcp.active then .ok (r.tick kernel.now)
        else .ok r
  else .ok (r.leave kernel.now)

/-- `_initialize_TCP`, with the adapter set up. -/
def initializeTCP (cfg : TCPConfig) (adapter : A) (device : List D) (kernel : Kernel D) :
    TCPSpongeSocket A D :=
  { tcp := TCPConnection.new cfg, datagramAdapter := adapter, kernel := kernel, device := device }

/-- `connect`, up to its loop. -/
def connect (cfg : TCPConfig) (config : FdAdapterConfig) (made : A × List D) (kernel : Kernel D) :
    Except SocketFault (Running A D) :=
  let s := initializeTCP cfg (FdAdapter.setConfig made.1 config) made.2 kernel
  let s := { s with tcp := s.tcp.connect }
  if s.tcp.state ≠ TCPState.ofState .synSent then .error .notSynSent
  else .ok { sock := s, eventloop := rules, baseTime := kernel.now, phase := .connecting }

/-- **`connect` gets as far as its loop.** -/
theorem connect_ok (cfg : TCPConfig) (config : FdAdapterConfig) (made : A × List D)
    (kernel : Kernel D) : connect cfg config made kernel = .ok
      { sock := { initializeTCP cfg (FdAdapter.setConfig made.1 config) made.2 kernel with
          tcp := (TCPConnection.new cfg).connect }
        eventloop := rules
        baseTime := kernel.now
        phase := .connecting } := by
  have synSent : ¬ (TCPConnection.new cfg).connect.state ≠ TCPState.ofState .synSent :=
    not_not_intro (TCPConnection.connect_state cfg)
  exact if_neg synSent

/-- `listen_and_accept`, up to its loop. -/
def listenAndAccept (cfg : TCPConfig) (config : FdAdapterConfig) (made : A × List D)
    (kernel : Kernel D) : Running A D :=
  { sock := initializeTCP cfg
      (FdAdapter.setListening (FdAdapter.setConfig made.1 config) true) made.2 kernel
    eventloop := rules
    baseTime := kernel.now
    phase := .accepting }

end TCPSpongeSocket

end Sponge
