import Sponge.ByteStream
import Sponge.TCPSegment

/-!
# The TCP sender

Embedding of `libsponge/tcp_sender.{hh,cc}`.  The sender cuts its input stream into
segments as the peer's window allows, keeps every segment that is not yet
acknowledged, and sends the oldest one again when the timer expires.

`fill_window` is a `do`–`while` loop around one segment object that is **reused**
from one pass to the next; `fillStep` is one pass and returns the object with the
sender, so whatever a pass leaves in it is seen by the next one.

### The cut

One pass of the loop is cut into `stamp`, `load`, `finish` and `emit`, in the order of the
source's statements.  The order matters: the SYN is counted as in flight before the payload
is sized, so a window of one leaves room for no byte, and the FIN is tested after the
payload has been counted.

### Termination

The loop is not structurally decreasing, and a bound on the passes is not visible in the
code.  A pass after which the loop goes on leaves bytes in the stream and room in the
window, so it has read at least one byte; `fillStep_decreases` is that fact, and it needs no
invariant.  `fill_window` is therefore a total function on all states, the broken ones
included.

### Arithmetic

`_window_size - _bytes_in_flight` is written with `sub64`, because in a broken state it
would wrap around; that it does not in a sound one is proved in `TCPSender.Window`.
`_next_seqno` is a plain sum.  Where its range matters, it is a hypothesis.
-/

namespace Sponge

/-- `TCPConfig`, with the source's constants and defaults. -/
structure TCPConfig where
  rtTimeout : UInt16 := 1000
  recvCapacity : ℕ := 64000
  sendCapacity : ℕ := 64000
  /-- `fixed_isn`.  Without one the source draws a random number, so a
  configuration of the model always has one. -/
  fixedIsn : WrappingInt32
  deriving Repr, DecidableEq

namespace TCPConfig

/-- `MAX_PAYLOAD_SIZE`. -/
def maxPayloadSize : ℕ := 1000

/-- `MAX_RETX_ATTEMPTS`. -/
def maxRetxAttempts : ℕ := 8

end TCPConfig

/-- `RetransmissionTimer`.  It counts up to its deadline, and does not stop by itself when it
reaches it. -/
structure RetransmissionTimer where
  ddl : ℕ := 0
  cur : ℕ := 0
  isStart : Bool := false
  deriving Repr, DecidableEq

namespace RetransmissionTimer

/-- A timer that does not run does not expire. -/
def expired (t : RetransmissionTimer) : Bool :=
  if t.isStart then decide (t.cur ≥ t.ddl) else false

/-- A timer that runs is not restarted. -/
def start (t : RetransmissionTimer) (ddl : ℕ) : RetransmissionTimer :=
  if t.isStart then t else { ddl := ddl, cur := 0, isStart := true }

/-- The deadline and the clock are forgotten. -/
def stop (_ : RetransmissionTimer) : RetransmissionTimer :=
  { ddl := 0, cur := 0, isStart := false }

def tick (t : RetransmissionTimer) (time : ℕ) : RetransmissionTimer :=
  if t.isStart then { t with cur := add64 t.cur time } else t

end RetransmissionTimer

/-- `TCPSender`.  A segment that is sent joins two queues: `segmentsOut`, from which the owner
takes it, and `outstandingSegments`, where it stays until it is acknowledged.  `unaSeqno` is the
highest acknowledgment so far, which can lie inside the first outstanding segment, since the
source keeps a segment that is acknowledged in part. -/
structure TCPSender where
  isn : WrappingInt32
  segmentsOut : List TCPSegment := []
  initialRetransmissionTimeout : ℕ
  stream : ByteStream
  nextSeqno : ℕ := 0
  windowSize : ℕ := 1
  bytesInFlight : ℕ := 0
  unaSeqno : ℕ := 0
  outstandingSegments : List TCPSegment := []
  timer : RetransmissionTimer := {}
  curTime : ℕ := 0
  curRto : ℕ
  consecutiveRetransTimes : ℕ := 0
  isTransmissionEnded : Bool := false
  deriving Repr, DecidableEq

namespace TCPSender

/-- The constructor `TCPSender(capacity, retx_timeout, fixed_isn)`. -/
def new (capacity : ℕ) (retxTimeout : UInt16) (fixedIsn : WrappingInt32) : TCPSender :=
  { isn := fixedIsn
    initialRetransmissionTimeout := retxTimeout.toNat
    stream := ByteStream.new capacity
    curRto := retxTimeout.toNat }

/-- The first part of a pass: number the segment, and make it a SYN if nothing was
sent before. -/
def stamp (s : TCPSender) (seg : TCPSegment) : TCPSender × TCPSegment :=
  let seg := { seg with header := { seg.header with seqno := wrap s.nextSeqno s.isn } }
  if s.nextSeqno = 0 then
    ({ s with nextSeqno := s.nextSeqno + 1, bytesInFlight := s.bytesInFlight + 1 },
      { seg with header := { seg.header with syn := true } })
  else (s, seg)

/-- The second part: take payload from the stream. -/
def load (actualWindowSize : ℕ) (s : TCPSender) (seg : TCPSegment) :
    TCPSender × TCPSegment :=
  let readSize := min (sub64 actualWindowSize s.bytesInFlight) TCPConfig.maxPayloadSize
  let (payload, stream) := s.stream.read readSize
  ({ s with
      stream := stream
      bytesInFlight := s.bytesInFlight + payload.length
      nextSeqno := s.nextSeqno + payload.length },
    { seg with payload := payload })

/-- The third part: make it a FIN if the stream is closed, all of it has been sent
and the window has room for one more. -/
def finish (actualWindowSize : ℕ) (s : TCPSender) (seg : TCPSegment) :
    TCPSender × TCPSegment :=
  if (s.stream.inputEnded && s.stream.eof) = true ∧
      sub64 actualWindowSize s.bytesInFlight ≠ 0 then
    ({ s with
        nextSeqno := s.nextSeqno + 1
        bytesInFlight := s.bytesInFlight + 1
        isTransmissionEnded := true },
      { seg with header := { seg.header with fin := true } })
  else (s, seg)

/-- The last part: send the segment unless it is empty. -/
def emit (s : TCPSender) (seg : TCPSegment) : TCPSender :=
  if seg.payload.length ≠ 0 ∨ seg.header.syn = true ∨ seg.header.fin = true then
    { s with
      segmentsOut := s.segmentsOut ++ [seg]
      outstandingSegments := s.outstandingSegments ++ [seg]
      timer := s.timer.start s.curRto }
  else s

/-- One pass through the loop of `fill_window`. -/
def fillStep (actualWindowSize : ℕ) (s : TCPSender) (seg : TCPSegment) :
    TCPSender × TCPSegment :=
  let (s, seg) := s.stamp seg
  let (s, seg) := s.load actualWindowSize seg
  let (s, seg) := s.finish actualWindowSize seg
  (s.emit seg, seg)

/-- The condition of the loop. -/
def MoreToFill (actualWindowSize : ℕ) (s : TCPSender) : Prop :=
  s.stream.bufferEmpty = false ∧ sub64 actualWindowSize s.bytesInFlight ≠ 0

instance (actualWindowSize : ℕ) (s : TCPSender) : Decidable (s.MoreToFill actualWindowSize) :=
  inferInstanceAs (Decidable (_ ∧ _))

@[simp] theorem stamp_stream (s : TCPSender) (seg : TCPSegment) :
    (s.stamp seg).1.stream = s.stream := by
  unfold stamp
  split <;> rfl

@[simp] theorem emit_stream (s : TCPSender) (seg : TCPSegment) :
    (s.emit seg).stream = s.stream := by
  unfold emit
  split <;> rfl

@[simp] theorem emit_nextSeqno (s : TCPSender) (seg : TCPSegment) :
    (s.emit seg).nextSeqno = s.nextSeqno := by
  unfold emit
  split <;> rfl

@[simp] theorem emit_isTransmissionEnded (s : TCPSender) (seg : TCPSegment) :
    (s.emit seg).isTransmissionEnded = s.isTransmissionEnded := by
  unfold emit
  split <;> rfl

@[simp] theorem emit_bytesInFlight (s : TCPSender) (seg : TCPSegment) :
    (s.emit seg).bytesInFlight = s.bytesInFlight := by
  unfold emit
  split <;> rfl

/-- With bytes left in the stream there is no FIN. -/
theorem finish_of_buffered (actualWindowSize : ℕ) {s : TCPSender} (seg : TCPSegment)
    (buffered : s.stream.bufferEmpty = false) :
    s.finish actualWindowSize seg = (s, seg) := by
  unfold finish
  rw [if_neg]
  simp [ByteStream.eof, buffered]

@[simp] theorem finish_stream (actualWindowSize : ℕ) (s : TCPSender) (seg : TCPSegment) :
    (s.finish actualWindowSize seg).1.stream = s.stream := by
  unfold finish
  split <;> rfl

/-- **A pass that is followed by another takes bytes from the stream**, so the loop ends.  A
window with room asks for at least one byte, and a full one ends the loop.  No invariant is
needed, so the loop ends in every state. -/
theorem fillStep_decreases {actualWindowSize : ℕ} {s : TCPSender} {seg : TCPSegment}
    (more : (s.fillStep actualWindowSize seg).1.MoreToFill actualWindowSize) :
    (s.fillStep actualWindowSize seg).1.stream.bufferSize < s.stream.bufferSize := by
  obtain ⟨hbuffered, hspace⟩ := more
  simp only [fillStep] at hbuffered hspace ⊢
  rw [emit_stream, finish_stream] at hbuffered ⊢
  rw [finish_of_buffered _ _ hbuffered, emit_bytesInFlight] at hspace
  simp only [load, ByteStream.read, ByteStream.popOutput, ByteStream.bufferEmpty,
    ByteStream.bufferSize, ByteStream.peekOutput, stamp_stream, beq_eq_false_iff_ne,
    List.length_take] at *
  -- a window with room asks for at least one byte, and a full one ends the loop
  by_cases full : sub64 actualWindowSize (s.stamp seg).1.bytesInFlight = 0
  · simp [full] at hspace
  · have : 0 < TCPConfig.maxPayloadSize := by decide
    omega

/-- The loop of `fill_window`.  `seg` is the reused segment object. -/
def fillLoop (actualWindowSize : ℕ) (s : TCPSender) (seg : TCPSegment) : TCPSender :=
  if s.isTransmissionEnded then s
  else if _more : (s.fillStep actualWindowSize seg).1.MoreToFill actualWindowSize then
    fillLoop actualWindowSize (s.fillStep actualWindowSize seg).1
      (s.fillStep actualWindowSize seg).2
  else (s.fillStep actualWindowSize seg).1
  termination_by s.stream.bufferSize
  decreasing_by exact fillStep_decreases _more

/-- A zero window counts as a window of one. -/
def actualWindowSize (s : TCPSender) : ℕ := if s.windowSize = 0 then 1 else s.windowSize

/-- `fill_window`.  A window that is full already is left alone; the source notes that this
happens because a segment is never acknowledged in part. -/
def fillWindow (s : TCPSender) : TCPSender :=
  if s.actualWindowSize ≤ s.bytesInFlight then s
  else fillLoop s.actualWindowSize s {}

/-- The segment ends at or below `acknoAbs`. -/
def Acked (s : TCPSender) (acknoAbs : ℕ) (seg : TCPSegment) : Prop :=
  acknoAbs ≥ add64 (unwrap seg.header.seqno s.isn s.nextSeqno) seg.lengthInSequenceSpace

instance (s : TCPSender) (acknoAbs : ℕ) (seg : TCPSegment) : Decidable (s.Acked acknoAbs seg) :=
  inferInstanceAs (Decidable (_ ≤ _))

/-- The loop of `ack_received`: pop what is acknowledged from the front, and take
its length off the count of bytes in flight. -/
def popAcked (s : TCPSender) (acknoAbs : ℕ) : ℕ → List TCPSegment → ℕ × List TCPSegment
  | flight, [] => (flight, [])
  | flight, seg :: rest =>
      if s.Acked acknoAbs seg then
        s.popAcked acknoAbs (sub64 flight seg.lengthInSequenceSpace) rest
      else (flight, seg :: rest)

/-- The window is taken over from every acknowledgment, the unacceptable ones
included. -/
def ackReceived (s : TCPSender) (ackno : WrappingInt32) (windowSize : UInt16) : TCPSender :=
  let acknoAbs := unwrap ackno s.isn s.nextSeqno
  -- unacceptable ack
  if acknoAbs ≤ s.unaSeqno ∨ acknoAbs > s.nextSeqno then
    { s with windowSize := windowSize.toNat }
  else
    let left := s.popAcked acknoAbs s.bytesInFlight s.outstandingSegments
    { s with
      windowSize := windowSize.toNat
      unaSeqno := acknoAbs
      bytesInFlight := left.1
      outstandingSegments := left.2
      curRto := s.initialRetransmissionTimeout
      consecutiveRetransTimes := 0
      timer :=
        if left.2.isEmpty then s.timer.stop
        else s.timer.stop.start s.initialRetransmissionTimeout }

/-- `tick`: at the timeout the oldest segment is sent again, and the timeout doubles unless the
window is closed. -/
def tick (s : TCPSender) (msSinceLastTick : ℕ) : TCPSender :=
  let s := { s with
    curTime := add64 s.curTime msSinceLastTick
    timer := s.timer.tick msSinceLastTick }
  match s.timer.expired, s.outstandingSegments with
  | true, seg :: _ =>
      let s := { s with segmentsOut := s.segmentsOut ++ [seg] }
      let s :=
        if s.windowSize ≠ 0 then
          { s with
            consecutiveRetransTimes := (s.consecutiveRetransTimes + 1) % 2 ^ 32
            curRto := (s.curRto <<< 1) % 2 ^ 64 }
        else s
      { s with timer := s.timer.stop.start s.curRto }
  | _, _ => s

/-- `send_empty_segment`: a segment with a number and nothing else, which is not kept. -/
def sendEmptySegment (s : TCPSender) : TCPSender :=
  { s with segmentsOut := s.segmentsOut ++
      [{ header := { seqno := wrap s.nextSeqno s.isn } }] }

end TCPSender

end Sponge
