import Sponge.TCPState

/-!
# The TCP connection

Embedding of `libsponge/tcp_connection.{hh,cc}`: an endpoint is a receiver, a
sender and an outbound queue.  A segment that arrives goes to the receiver, its
acknowledgment to the sender, and whatever the sender then has to say leaves with
the receiver's acknowledgment and window on it.

`segmentReceived` is cut where the source hands the segment to the receiver:
`respond` is what it does afterwards, and `segmentReceived_branches` names the four
ways a call can end.  `Outcome` does the same for all operations together, for those
ends that leave no error.

### Two queues

A segment is on the queue of the sender before it is on that of the connection, and nothing
forces the first to be empty between two calls: `end_input_stream` returns early when there
is no FIN at its front, and a connection that gives up takes one segment from it.  So the
model keeps both queues, and what is left on the first is stated wherever it matters
(`TCPConnection.Handover`).

### The order of the tests

`segment_received` sets the clock back before it looks at the segment, answers a keep-alive
before it looks at the state, and hands the segment to the receiver before the
acknowledgment to the sender.  Each of these can be observed: an unwanted segment prolongs
lingering, a keep-alive is answered after an error, and the flag that decides about
lingering is set by the receiver's new state and the sender's old stream.

### What is left out

The destructor, which sends a last RST into a queue that nobody reads any more, and the
accessors that only hand through a field of the sender or the receiver.
-/

namespace Sponge

/-- `TCPConnection`. -/
structure TCPConnection where
  cfg : TCPConfig
  receiver : TCPReceiver
  sender : TCPSender
  segmentsOut : List TCPSegment := []
  lingerAfterStreamsFinish : Bool := true
  timeSinceLastSegReceived : ℕ := 0
  deriving Repr, DecidableEq

namespace TCPConnection

/-- The constructor `TCPConnection(cfg)`. -/
def new (cfg : TCPConfig) : TCPConnection :=
  { cfg := cfg
    receiver := TCPReceiver.new cfg.recvCapacity
    sender := TCPSender.new cfg.sendCapacity cfg.rtTimeout cfg.fixedIsn }

/-- `active()`, test by test.  It does not ask whether a FIN was sent. -/
def active (c : TCPConnection) : Bool :=
  -- connection has been reset
  if c.sender.stream.error || c.receiver.streamOut.error then false
  -- need to linger for a while
  else if c.lingerAfterStreamsFinish &&
      decide (c.timeSinceLastSegReceived < 10 * c.cfg.rtTimeout.toNat) then true
  -- transmission in progress
  else if c.sender.bytesInFlight ≠ 0 then true
  -- byte stream in two direction all ended
  else if c.sender.stream.inputEnded && c.receiver.streamOut.inputEnded then false
  else true

/-- `state()`: what the four parts look like. -/
def state (c : TCPConnection) : TCPState :=
  TCPState.ofParts c.sender c.receiver c.active c.lingerAfterStreamsFinish

/-- The fields the receiver fills in: the acknowledgment, if there is one, and the
window, cut to 16 bits. -/
def fillIn (c : TCPConnection) (seg : TCPSegment) : TCPSegment :=
  let header :=
    match c.receiver.ackno with
    | some ackno => { seg.header with ack := true, ackno := ackno }
    | none => seg.header
  { seg with header := { header with win := UInt16.ofNat (min c.receiver.windowSize 65535) } }

/-- `_send_all_outbounding_segments`. -/
def sendAllOutboundingSegments (c : TCPConnection) : TCPConnection :=
  { c with
    segmentsOut := c.segmentsOut ++ c.sender.segmentsOut.map c.fillIn
    sender := { c.sender with segmentsOut := [] } }

/-- `_send_rst_segmenet`: the segment at the front of the sender's queue leaves with
the RST flag, which is the new empty one only if the queue was empty. -/
def sendRstSegmenet (c : TCPConnection) : TCPConnection :=
  let sender := c.sender.sendEmptySegment
  match sender.segmentsOut with
  | seg :: rest =>
      { c with
        sender := { sender with segmentsOut := rest }
        segmentsOut := c.segmentsOut ++ [{ seg with header := { seg.header with rst := true } }] }
  | [] => { c with sender := sender }

/-- Set the error flag of both streams. -/
def setErrors (c : TCPConnection) : TCPConnection :=
  { c with
    sender := { c.sender with stream := c.sender.stream.setError }
    receiver := c.receiver.setError }

/-- A TCP keep-alive: no sequence numbers, one below the acknowledgment. -/
def isKeepAlive (c : TCPConnection) (seg : TCPSegment) : Bool :=
  match c.receiver.ackno with
  | some ackno =>
      seg.lengthInSequenceSpace == 0 && seg.header.seqno == ackno - (1 : UInt32)
  | none => false

/-- The sender takes the acknowledgment of the segment, if it has one. -/
def acknowledge (sender : TCPSender) (seg : TCPSegment) : TCPSender :=
  if seg.header.ack then sender.ackReceived seg.header.ackno seg.header.win else sender

/-- Take the acknowledgment of the segment and fill the window.  If the inbound
stream ended before the outbound one, the connection need not linger. -/
def refill (c : TCPConnection) (seg : TCPSegment) : TCPConnection :=
  let acked := acknowledge c.sender seg
  { c with
    lingerAfterStreamsFinish :=
      if c.receiver.streamOut.inputEnded && !acked.stream.eof then false
      else c.lingerAfterStreamsFinish
    sender := acked.fillWindow }

/-- What follows once the receiver has taken the segment. -/
def respond (c : TCPConnection) (seg : TCPSegment) : TCPConnection :=
  let c := c.refill seg
  if c.sender.segmentsOut.isEmpty then
    -- an ack is due although there is no data to send
    if seg.lengthInSequenceSpace ≠ 0 then
      { c with sender := c.sender.sendEmptySegment }.sendAllOutboundingSegments
    else c
  else c.sendAllOutboundingSegments

/-- `segment_received`.  It fails exactly where the receiver does. -/
def segmentReceived (c : TCPConnection) (seg : TCPSegment) : Except Fault TCPConnection :=
  let c := { c with timeSinceLastSegReceived := 0 }
  if seg.header.rst then .ok c.setErrors
  else if c.isKeepAlive seg then
    .ok { c with sender := c.sender.sendEmptySegment }.sendAllOutboundingSegments
  -- drop any segment except SYN in LISTEN state
  else if c.state = TCPState.ofState .listen ∧ seg.header.syn = false then .ok c
  else
    match c.receiver.segmentReceived seg with
    | .ok receiver => .ok ({ c with receiver := receiver }.respond seg)
    | .error fault => .error fault

/-- The number returned is the number of bytes accepted. -/
def write (c : TCPConnection) (data : List UInt8) : ℕ × TCPConnection :=
  let (ret, stream) := c.sender.stream.write data
  (ret, { c with sender := { c.sender with stream := stream }.fillWindow
        }.sendAllOutboundingSegments)

/-- `tick`: the sender first; a retransmission too many resets the connection. -/
def tick (c : TCPConnection) (msSinceLastTick : ℕ) : TCPConnection :=
  let c := { c with
    timeSinceLastSegReceived := add64 c.timeSinceLastSegReceived msSinceLastTick
    sender := c.sender.tick msSinceLastTick }
  -- retried too many times, reset the connection
  if c.sender.consecutiveRetransTimes > TCPConfig.maxRetxAttempts then
    c.sendRstSegmenet.setErrors
  else c.sendAllOutboundingSegments

/-- The queue is left alone unless the segment at its front is the FIN. -/
def endInputStream (c : TCPConnection) : TCPConnection :=
  let c := { c with
    sender := { c.sender with stream := c.sender.stream.endInput }.fillWindow }
  match c.sender.segmentsOut with
  | [] => c
  | seg :: _ => if seg.header.fin then c.sendAllOutboundingSegments else c

/-- `connect()`: fill the window, which sends the SYN if it was not sent. -/
def connect (c : TCPConnection) : TCPConnection :=
  { c with sender := c.sender.fillWindow }.sendAllOutboundingSegments

/-- `inbound_stream().read(len)`. -/
def readInbound (c : TCPConnection) (len : ℕ) : List UInt8 × TCPConnection :=
  ((c.receiver.readOut len).1, { c with receiver := (c.receiver.readOut len).2 })

/-- A call on a connection by its owner or by the network.  What the destructor does is left out:
it puts a RST on a queue that nobody reads any more. -/
inductive Op where
  | connect
  | write (data : List UInt8)
  | endInputStream
  | tick (ms : ℕ)
  | read (len : ℕ)
  | segment (seg : TCPSegment)
  deriving Repr, DecidableEq

/-- `write` is not called after `end_input_stream`. -/
def NotAfterEnd (c : TCPConnection) : Op → Prop
  | .write _ => c.sender.stream.inputEnded = false
  | _ => True

instance decidableNotAfterEnd (c : TCPConnection) : ∀ op, Decidable (c.NotAfterEnd op)
  | .write _ => inferInstanceAs (Decidable (_ = _))
  | .connect | .endInputStream | .tick _ | .read _ | .segment _ =>
      inferInstanceAs (Decidable True)

/-- One call.  Only a segment can fail. -/
def step (c : TCPConnection) : Op → Except Fault TCPConnection
  | .connect => .ok c.connect
  | .write data => .ok (c.write data).2
  | .endInputStream => .ok c.endInputStream
  | .tick ms => .ok (c.tick ms)
  | .read len => .ok (c.readInbound len).2
  | .segment seg => c.segmentReceived seg

/-! ## The ends of `segment_received` -/

/-- **A successful `segment_received`, taken apart**, each branch with what led to it.  The
branches are in the order in which the source tests for them. -/
theorem segmentReceived_branches {c c' : TCPConnection} {seg : TCPSegment}
    (h : c.segmentReceived seg = .ok c') :
    (seg.header.rst = true ∧ c' = { c with timeSinceLastSegReceived := 0 }.setErrors) ∨
    (seg.header.rst = false ∧ c.isKeepAlive seg = true ∧
      c' = { c with timeSinceLastSegReceived := 0
                    sender := c.sender.sendEmptySegment }.sendAllOutboundingSegments) ∨
    (seg.header.rst = false ∧ seg.header.syn = false ∧
      { c with timeSinceLastSegReceived := 0 }.state = TCPState.ofState .listen ∧
      c' = { c with timeSinceLastSegReceived := 0 }) ∨
    (seg.header.rst = false ∧ c.isKeepAlive seg = false ∧
      ¬({ c with timeSinceLastSegReceived := 0 }.state = TCPState.ofState .listen ∧
        seg.header.syn = false) ∧
      ∃ receiver, c.receiver.segmentReceived seg = .ok receiver ∧
        c' = { c with timeSinceLastSegReceived := 0, receiver := receiver }.respond seg) := by
  unfold segmentReceived at h
  simp only at h
  split at h
  · next rst => exact Or.inl ⟨rst, (Except.ok.inj h).symm⟩
  next noRst =>
  have noRst := Bool.eq_false_iff.mpr noRst
  split at h
  · next alive => exact Or.inr (Or.inl ⟨noRst, alive, (Except.ok.inj h).symm⟩)
  next notAlive =>
  have notAlive := Bool.eq_false_iff.mpr notAlive
  split at h
  · next listen => exact Or.inr (Or.inr (Or.inl ⟨noRst, listen.2, listen.1, (Except.ok.inj h).symm⟩))
  next taken =>
  cases hr : c.receiver.segmentReceived seg with
  | error fault => simp [hr] at h
  | ok receiver =>
      simp only [hr, Except.ok.injEq] at h
      exact Or.inr (Or.inr (Or.inr ⟨noRst, notAlive, taken, receiver, rfl, h.symm⟩))

/-- The four outcomes alone: a reset, the answer to a keep-alive, a segment dropped in
LISTEN, or a segment the receiver has taken. -/
theorem segmentReceived_cases {c c' : TCPConnection} {seg : TCPSegment}
    (h : c.segmentReceived seg = .ok c') :
    c' = { c with timeSinceLastSegReceived := 0 }.setErrors ∨
    c' = { c with timeSinceLastSegReceived := 0
                  sender := c.sender.sendEmptySegment }.sendAllOutboundingSegments ∨
    c' = { c with timeSinceLastSegReceived := 0 } ∨
    ∃ receiver, seg.header.rst = false ∧ c.receiver.segmentReceived seg = .ok receiver ∧
      c' = { c with timeSinceLastSegReceived := 0, receiver := receiver }.respond seg := by
  rcases segmentReceived_branches h with ⟨-, hc⟩ | ⟨-, -, hc⟩ | ⟨-, -, -, hc⟩ |
    ⟨noRst, -, -, receiver, hr, hc⟩
  · exact Or.inl hc
  · exact Or.inr (Or.inl hc)
  · exact Or.inr (Or.inr (Or.inl hc))
  · exact Or.inr (Or.inr (Or.inr ⟨receiver, noRst, hr, hc⟩))

/-- A RST always succeeds and sets the error flags. -/
theorem segmentReceived_of_rst (c : TCPConnection) {seg : TCPSegment}
    (rst : seg.header.rst = true) :
    c.segmentReceived seg = .ok { c with timeSinceLastSegReceived := 0 }.setErrors :=
  if_pos rst

/-- A connection fails only where its receiver does. -/
theorem segmentReceived_succeeds {c : TCPConnection} {seg : TCPSegment}
    (h : ∃ receiver, c.receiver.segmentReceived seg = .ok receiver) :
    ∃ c', c.segmentReceived seg = .ok c' := by
  obtain ⟨receiver, hr⟩ := h
  unfold segmentReceived
  simp only [hr]
  split
  · exact ⟨_, rfl⟩
  split
  · exact ⟨_, rfl⟩
  split
  · exact ⟨_, rfl⟩
  · exact ⟨_, rfl⟩

/-- In LISTEN there is nothing to acknowledge. -/
theorem ackno_of_listen {c : TCPConnection} (listen : c.state = TCPState.ofState .listen) :
    c.receiver.ackno = none :=
  (TCPState.receiverSummary_eq_listen.mp (congrArg TCPState.receiver listen)).2

/-! ## What an operation can do without error -/

/-- The outbound stream that an operation of the owner fills the window from. -/
def Restocked (c : TCPConnection) : Op → ByteStream → Prop
  | .connect, stream => stream = c.sender.stream
  | .write data, stream => stream = (c.sender.stream.write data).2
  | .endInputStream, stream => stream = c.sender.stream.endInput
  | .tick _, _ | .read _, _ | .segment _, _ => False

/-- **The outcomes of an operation that leave no error.**  An invariant of live connections is
proved once for each of these and not once for each operation: `connect`, `write` and
`end_input_stream` have two outcomes between them, and differ in the stream that the window is
filled from. -/
inductive Outcome (c : TCPConnection) : Op → TCPConnection → Prop
  /-- The window is filled and the queue left alone. -/
  | filled {op : Op} {stream : ByteStream} (restocked : c.Restocked op stream) :
      Outcome c op { c with sender := { c.sender with stream := stream }.fillWindow }
  /-- The window is filled and the queue emptied. -/
  | flushed {op : Op} {stream : ByteStream} (restocked : c.Restocked op stream) :
      Outcome c op { c with
        sender := { c.sender with stream := stream }.fillWindow }.sendAllOutboundingSegments
  | ticked (ms : ℕ)
      (retries : (c.sender.tick ms).consecutiveRetransTimes ≤ TCPConfig.maxRetxAttempts) :
      Outcome c (.tick ms) { c with
        timeSinceLastSegReceived := add64 c.timeSinceLastSegReceived ms
        sender := c.sender.tick ms }.sendAllOutboundingSegments
  | read (len : ℕ) : Outcome c (.read len) { c with receiver := (c.receiver.readOut len).2 }
  | keptAlive {seg : TCPSegment} (alive : c.isKeepAlive seg = true) :
      Outcome c (.segment seg) { c with
        timeSinceLastSegReceived := 0
        sender := c.sender.sendEmptySegment }.sendAllOutboundingSegments
  | dropped {seg : TCPSegment} (noSyn : seg.header.syn = false)
      (listen : { c with timeSinceLastSegReceived := 0 }.state = TCPState.ofState .listen) :
      Outcome c (.segment seg) { c with timeSinceLastSegReceived := 0 }
  | answered {seg : TCPSegment} {receiver : TCPReceiver} (noRst : seg.header.rst = false)
      (notAlive : c.isKeepAlive seg = false)
      (received : c.receiver.segmentReceived seg = .ok receiver) :
      Outcome c (.segment seg)
        ({ c with timeSinceLastSegReceived := 0, receiver := receiver }.respond seg)

/-- An operation after which there is no error has one of these outcomes. -/
theorem outcome_of_step {c c' : TCPConnection} {op : Op} (stepped : c.step op = .ok c')
    (noError : c'.sender.stream.error = false) : Outcome c op c' := by
  cases op with
  | connect =>
      obtain rfl := Except.ok.inj stepped
      exact .flushed (show c.Restocked .connect c.sender.stream from rfl)
  | write data =>
      obtain rfl := Except.ok.inj stepped
      exact .flushed (show c.Restocked (.write data) (c.sender.stream.write data).2 from rfl)
  | endInputStream =>
      obtain rfl := Except.ok.inj stepped
      unfold endInputStream
      simp only
      split
      · exact .filled rfl
      · split
        · exact .flushed rfl
        · exact .filled rfl
  | tick ms =>
      obtain rfl := Except.ok.inj stepped
      unfold TCPConnection.tick at noError ⊢
      simp only at noError ⊢
      split
      · -- giving up sets the error flag
        next gaveUp =>
        rw [if_pos gaveUp] at noError
        cases noError
      · next going => exact .ticked ms (not_lt.mp going)
  | read len =>
      obtain rfl := Except.ok.inj stepped
      exact .read len
  | segment seg =>
      rcases segmentReceived_branches stepped with ⟨-, rfl⟩ | ⟨-, alive, rfl⟩ |
        ⟨-, noSyn, listen, rfl⟩ | ⟨noRst, notAlive, -, receiver, received, rfl⟩
      · cases noError
      · exact .keptAlive alive
      · exact .dropped noSyn listen
      · exact .answered noRst notAlive received

/-- **An answer fills the window, queues and sends.**  What holds once the window is filled, and
is kept by an empty segment and by emptying the sender's queue, holds after it.  With this rule no
proof about `segment_received` has to go through the three ways in which an answer ends. -/
theorem respond_rule {P : TCPConnection → Prop} {c : TCPConnection} {seg : TCPSegment}
    (filled : P (c.refill seg))
    (sendEmpty : ∀ c : TCPConnection, P c → P { c with sender := c.sender.sendEmptySegment })
    (sendAll : ∀ c : TCPConnection, P c → P c.sendAllOutboundingSegments) :
    P (c.respond seg) := by
  unfold respond
  simp only
  split
  · split
    · exact sendAll _ (sendEmpty _ filled)
    · exact filled
  · exact sendAll _ filled

/-! ## What leaves the receiver alone -/

@[simp] theorem sendRst_receiver (c : TCPConnection) :
    c.sendRstSegmenet.receiver = c.receiver := by
  unfold sendRstSegmenet
  simp only
  split <;> rfl

@[simp] theorem respond_receiver (c : TCPConnection) (seg : TCPSegment) :
    (c.respond seg).receiver = c.receiver :=
  respond_rule (P := fun c' => c'.receiver = c.receiver) rfl (fun _ h => h) fun _ h => h

@[simp] theorem write_receiver (c : TCPConnection) (data : List UInt8) :
    (c.write data).2.receiver = c.receiver := rfl

@[simp] theorem connect_receiver (c : TCPConnection) : c.connect.receiver = c.receiver := rfl

@[simp] theorem endInputStream_receiver (c : TCPConnection) :
    c.endInputStream.receiver = c.receiver := by
  unfold endInputStream
  simp only
  split
  · rfl
  · split <;> rfl

end TCPConnection

end Sponge
