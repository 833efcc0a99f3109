import Sponge.TCPSender.Passes
import Sponge.TCPConnection.Inbound
import Sponge.TCPConnection.Outbound

/-!
# What a connection answers

Everything a connection says in reply to a segment goes through the queue of its
sender, where `end_input_stream` and `tick` may have left something.  What keeps two
endpoints from exchanging bare acknowledgments for ever is that the queue never holds
one between two operations: `fill_window` only queues segments that occupy sequence
numbers (`Queued.occupied`), what is sent again was queued once, and an empty
segment leaves in the operation that asked for it.

* `reply_discipline` — a reply acknowledges what the receiver has, a segment that
  occupies sequence numbers is answered, and one that does not is answered at most
  with segments that do.

Nothing here depends on counters, so nothing is assumed about their range.

### Why the queue has to be looked at

`segment_received` decides whether to add an empty acknowledgment by asking whether the
queue is empty, not by asking whether it has put something there.  A bare acknowledgment
left behind by an earlier call would therefore leave with the answer to a segment that
deserves none, and two endpoints could keep each other busy.  `Occupied` is the invariant
that this never happens.  It fails after an error: a connection that gives up leaves an
empty segment behind.

### Two readings of *keep-alive*

Whether a segment is a keep-alive is decided by the acknowledgment before the call.  A
caller that looks at the acknowledgment afterwards would judge by the new one.  The
statement accepts either reading: a segment that is no keep-alive by one of them is not
answered with a bare acknowledgment.
-/

namespace Sponge

open Runs

namespace TCPSender

/-- No bare acknowledgment waits to be sent, or to be sent again. -/
structure Occupied (s : TCPSender) : Prop where
  queued : ∀ seg ∈ s.segmentsOut, seg.lengthInSequenceSpace ≠ 0
  outstanding : ∀ seg ∈ s.outstandingSegments, seg.lengthInSequenceSpace ≠ 0

/-- Only the queues matter. -/
theorem Occupied.congr {s s' : TCPSender} (h : s.Occupied)
    (queued : s'.segmentsOut ⊆ s.segmentsOut)
    (outstanding : s'.outstandingSegments ⊆ s.outstandingSegments) : s'.Occupied :=
  ⟨fun seg hseg => h.queued seg (queued hseg),
    fun seg hseg => h.outstanding seg (outstanding hseg)⟩

/-- **`fill_window` queues only segments that occupy sequence numbers.**  Its loop ends when a
segment would be empty, so a bare acknowledgment comes from `send_empty_segment` alone. -/
theorem Occupied.fillWindow {s : TCPSender} (h : s.Occupied) : s.fillWindow.Occupied := by
  have filled := s.fillWindow_queued
  refine ⟨fun seg hseg => ?_, fun seg hseg => ?_⟩
  · rw [filled.segmentsOut] at hseg
    exact (List.mem_append.mp hseg).elim (h.queued seg) (filled.occupied seg)
  · rw [filled.outstanding] at hseg
    exact (List.mem_append.mp hseg).elim (h.outstanding seg) (filled.occupied seg)

/-- Taking an acknowledgment only pops outstanding segments. -/
theorem Occupied.acknowledge {s : TCPSender} (h : s.Occupied) (seg : TCPSegment) :
    (TCPConnection.acknowledge s seg).Occupied := by
  obtain ⟨popped, frame⟩ := TCPConnection.acknowledge_effect s seg
  have same : (TCPConnection.acknowledge s seg).segmentsOut = s.segmentsOut := by rw [frame]
  exact h.congr (same ▸ List.Subset.refl _) popped.subset

end TCPSender

namespace TCPConnection

open TCPSender

/-! ## The sender of a connection, in any state -/

/-- What the sender has to say to a segment: the window is filled, and an empty segment
added if there is nothing else and an answer is due. -/
def answer (s : TCPSender) (seg : TCPSegment) : TCPSender :=
  let filled := (acknowledge s seg).fillWindow
  if filled.segmentsOut = [] ∧ seg.lengthInSequenceSpace ≠ 0 then filled.sendEmptySegment
  else filled

/-- **A segment is answered with what the sender has to say**, and nothing of it stays on the
queue of the sender. -/
theorem respond_answers (c : TCPConnection) (seg : TCPSegment) :
    (c.respond seg).sender = { answer c.sender seg with segmentsOut := [] } ∧
      (c.respond seg).segmentsOut
        = c.segmentsOut ++ (answer c.sender seg).segmentsOut.map c.fillIn := by
  have hqueue : (c.refill seg).sender = (acknowledge c.sender seg).fillWindow := rfl
  unfold respond answer
  simp only [hqueue, List.isEmpty_iff]
  by_cases empty : (acknowledge c.sender seg).fillWindow.segmentsOut = []
  · rw [if_pos empty]
    by_cases due : seg.lengthInSequenceSpace ≠ 0
    · rw [if_pos due, if_pos ⟨empty, due⟩]
      exact ⟨rfl, rfl⟩
    · rw [if_neg due, if_neg fun h => due h.2, hqueue, empty]
      exact ⟨by rw [← empty], (List.append_nil _).symm⟩
  · rw [if_neg empty, if_neg fun h => empty h.1]
    exact ⟨rfl, rfl⟩

/-- Once a segment is answered, the queue of the sender is empty. -/
theorem respond_sender (c : TCPConnection) (seg : TCPSegment) :
    (c.respond seg).sender = { (c.refill seg).sender with segmentsOut := [] } := by
  rw [(respond_answers c seg).1]
  unfold answer
  simp only
  split <;> rfl

/-- The answer is what fills the window, or an answer is due; and one that is due is not
empty. -/
theorem respond_emitted (c : TCPConnection) (seg : TCPSegment) :
    ∃ queue, (c.respond seg).segmentsOut = c.segmentsOut ++ queue.map c.fillIn ∧
      (queue = (c.refill seg).sender.segmentsOut ∨ seg.lengthInSequenceSpace ≠ 0) ∧
      (seg.lengthInSequenceSpace ≠ 0 → queue ≠ []) := by
  refine ⟨_, (respond_answers c seg).2, ?_⟩
  unfold answer
  simp only
  split
  · next empty =>
    exact ⟨Or.inr empty.2, fun _ =>
      List.append_ne_nil_of_right_ne_nil _ (List.cons_ne_nil _ _)⟩
  · next busy => exact ⟨Or.inl rfl, fun due empty => busy ⟨empty, due⟩⟩

/-- **The error flags are set together and never cleared.**  A connection that was reset stays so.
-/
theorem step_errors {c c' : TCPConnection} {op : Op} (h : c.step op = .ok c') :
    (c'.sender.stream.error = c.sender.stream.error ∧
      c'.receiver.streamOut.error = c.receiver.streamOut.error) ∨
    (c'.sender.stream.error = true ∧ c'.receiver.streamOut.error = true) := by
  cases op with
  | connect =>
      obtain rfl := Except.ok.inj h
      exact Or.inl ⟨(fillWindow_queued _).error, rfl⟩
  | write data =>
      obtain rfl := Except.ok.inj h
      exact Or.inl ⟨(fillWindow_queued _).error, rfl⟩
  | endInputStream =>
      obtain rfl := Except.ok.inj h
      have filled := (fillWindow_queued { c.sender with stream := c.sender.stream.endInput }).error
      refine Or.inl ⟨?_, by rw [endInputStream_receiver]⟩
      unfold endInputStream
      simp only
      split
      · exact filled
      · split <;> exact filled
  | tick ms =>
      obtain rfl := Except.ok.inj h
      obtain ⟨-, -, -, frame⟩ := c.sender.tick_effect ms
      have kept : (c.sender.tick ms).stream = c.sender.stream := by rw [frame]
      unfold tick
      simp only
      split
      · exact Or.inr ⟨rfl, rfl⟩
      · exact Or.inl ⟨congrArg ByteStream.error kept, rfl⟩
  | read len =>
      obtain rfl := Except.ok.inj h
      exact Or.inl ⟨rfl, rfl⟩
  | segment seg =>
      rcases segmentReceived_cases h with rfl | rfl | rfl | ⟨receiver, -, received, rfl⟩
      · exact Or.inr ⟨rfl, rfl⟩
      · exact Or.inl ⟨rfl, rfl⟩
      · exact Or.inl ⟨rfl, rfl⟩
      · refine Or.inl ⟨?_, ?_⟩
        · rw [respond_sender]
          refine (fillWindow_queued _).error.trans ?_
          rw [(acknowledge_effect _ seg).2]
        · rw [respond_receiver]
          exact TCPReceiver.segmentReceived_error received

/-- An error is for good. -/
theorem step_error {c c' : TCPConnection} {op : Op} (h : c.step op = .ok c')
    (error : c.sender.stream.error = true) : c'.sender.stream.error = true := by
  rcases step_errors h with ⟨same, -⟩ | ⟨set, -⟩
  · exact same.trans error
  · exact set

/-- So a state without error comes from one without. -/
theorem noError_of_step {c c' : TCPConnection} {op : Op} (h : c.step op = .ok c')
    (noError : c'.sender.stream.error = false) : c.sender.stream.error = false := by
  refine Bool.eq_false_iff.mpr fun error => ?_
  rw [step_error h error] at noError
  cases noError

/-- The queues hold no bare acknowledgment, unless the connection has been reset. -/
theorem occupied_step {c c' : TCPConnection} {op : Op} (occupied : c.sender.Occupied)
    (outcome : Outcome c op c') : c'.sender.Occupied := by
  -- the queue is emptied, or nothing but `fill_window` has added to it
  have flushed : ∀ {s : TCPSender}, s.Occupied → Occupied { s with segmentsOut := [] } :=
    fun h => h.congr (List.nil_subset _) (List.Subset.refl _)
  have restocked : ∀ stream, Occupied { c.sender with stream := stream }.fillWindow := by
    intro stream
    have same : Occupied { c.sender with stream := stream } :=
      ⟨occupied.queued, occupied.outstanding⟩
    exact same.fillWindow
  cases outcome with
  | filled => exact restocked _
  | flushed => exact flushed (restocked _)
  | ticked ms retries =>
      obtain ⟨-, -, -, frame⟩ := c.sender.tick_effect ms
      have kept : (c.sender.tick ms).outstandingSegments = c.sender.outstandingSegments := by
        rw [frame]
      exact occupied.congr (List.nil_subset _) (kept ▸ List.Subset.refl _)
  | read len => exact occupied
  | keptAlive alive => exact occupied.congr (List.nil_subset _) (List.Subset.refl _)
  | dropped noSyn listen => exact occupied
  | answered noRst notAlive received =>
      rw [respond_sender]
      exact flushed (occupied.acknowledge _).fillWindow

/-- In every state reached without error, no bare acknowledgment is queued. -/
theorem occupied_of_run {cfg : TCPConfig} {c : TCPConnection}
    (run : GuardedRun step (fun _ _ => True) (new cfg) c)
    (noError : c.sender.stream.error = false) : c.sender.Occupied := by
  refine run.invariant (fun c => c.sender.stream.error = false → c.sender.Occupied) ?_ ?_ noError
  · intro _
    exact ⟨by simp [new, TCPSender.new], by simp [new, TCPSender.new]⟩
  · intro c op c' ih _ h noError'
    exact occupied_step (ih (noError_of_step h noError')) (outcome_of_step h noError')

/-! ## The reply -/

/-- The receiver's fields take no sequence numbers. -/
theorem fillIn_length (c : TCPConnection) (seg : TCPSegment) :
    (c.fillIn seg).lengthInSequenceSpace = seg.lengthInSequenceSpace := by
  unfold fillIn
  cases c.receiver.ackno <;> rfl

/-- What the receiver fills in once it has something to acknowledge. -/
theorem fillIn_header {c : TCPConnection} {ackno : WrappingInt32}
    (known : c.receiver.ackno = some ackno) (seg : TCPSegment) :
    (c.fillIn seg).header.ack = true ∧ (c.fillIn seg).header.ackno = ackno ∧
      (c.fillIn seg).header.win.toNat = min c.receiver.windowSize 65535 := by
  unfold fillIn
  rw [known]
  refine ⟨rfl, rfl, ?_⟩
  show (UInt16.ofNat (min c.receiver.windowSize 65535)).toNat = _
  rw [UInt16.toNat_ofNat_of_lt']
  exact Nat.lt_succ_of_le (Nat.min_le_right _ _)

/-- **Reply discipline.**  Take any state reached without error and any segment without
RST that is processed without exception, after which the receiver has something to
acknowledge.  Then

* every segment sent in reply carries the receiver's acknowledgment and its window, cut
  to 16 bits;
* a segment that occupies sequence numbers gets a reply;
* one that does not, and is no keep-alive, gets only replies that do occupy sequence
  numbers.  It is no keep-alive if its number is not one below the acknowledgment, taken
  before or after the call. -/
theorem reply_discipline {cfg : TCPConfig} {c c' : TCPConnection}
    (run : GuardedRun step (fun _ _ => True) (new cfg) c)
    (noError : c.sender.stream.error = false ∧ c.receiver.streamOut.error = false)
    {seg : TCPSegment} (noRst : seg.header.rst = false)
    (received : c.segmentReceived seg = .ok c') {ackno : WrappingInt32}
    (known : c'.receiver.ackno = some ackno) :
    ∃ replies, c'.segmentsOut = c.segmentsOut ++ replies ∧
      (∀ out ∈ replies, out.header.ack = true ∧ out.header.ackno = ackno ∧
        out.header.win.toNat = min c'.receiver.windowSize 65535) ∧
      (seg.lengthInSequenceSpace ≠ 0 → replies ≠ []) ∧
      (seg.lengthInSequenceSpace = 0 →
        (∀ before, c.receiver.ackno = some before → seg.header.seqno ≠ before - (1 : UInt32)) ∨
          seg.header.seqno ≠ ackno - (1 : UInt32) →
        ∀ out ∈ replies, out.lengthInSequenceSpace ≠ 0) := by
  have occupied := occupied_of_run run noError.1
  -- whatever is sent has been filled in by the receiver as it is now
  have filled : ∀ queue : List TCPSegment, ∀ out ∈ queue.map c'.fillIn,
      out.header.ack = true ∧ out.header.ackno = ackno ∧
        out.header.win.toNat = min c'.receiver.windowSize 65535 := by
    intro queue out hout
    obtain ⟨seg, -, rfl⟩ := List.mem_map.mp hout
    exact fillIn_header known seg
  rcases segmentReceived_branches received with ⟨rst, -⟩ | ⟨-, alive, rfl⟩ |
    ⟨-, -, listen, rfl⟩ | ⟨-, -, -, receiver, hr, rfl⟩
  · rw [noRst] at rst
    cases rst
  · refine ⟨_, rfl, filled _, fun _ => ?_, fun _ other => ?_⟩
    · rw [Ne, List.map_eq_nil_iff]
      exact List.append_ne_nil_of_right_ne_nil _ (List.cons_ne_nil _ _)
    · -- a keep-alive leaves the acknowledgment as it was
      have hackno : c.receiver.ackno = some ackno := known
      simp only [isKeepAlive, hackno, Bool.and_eq_true, beq_iff_eq] at alive
      rcases other with before | after
      · exact absurd alive.2 (before ackno hackno)
      · exact absurd alive.2 after
  · -- in LISTEN there is nothing to acknowledge
    have hackno : c.receiver.ackno = some ackno := known
    have unknown : c.receiver.ackno = none := (ackno_of_listen listen :)
    rw [unknown] at hackno
    cases hackno
  · obtain ⟨queue, hout, hqueue, hanswered⟩ :=
      respond_emitted { c with timeSinceLastSegReceived := 0, receiver := receiver } seg
    have hfill : fillIn { c with timeSinceLastSegReceived := 0, receiver := receiver }
        = (respond { c with timeSinceLastSegReceived := 0, receiver := receiver } seg).fillIn := by
      funext x
      simp only [fillIn, respond_receiver]
    rw [hfill] at hout
    refine ⟨_, hout, filled queue, fun due => ?_, fun empty _ out hmem => ?_⟩
    · rw [Ne, List.map_eq_nil_iff]
      exact hanswered due
    · obtain ⟨queued, hqueued, rfl⟩ := List.mem_map.mp hmem
      rw [fillIn_length]
      rw [hqueue.resolve_right (not_not_intro empty)] at hqueued
      exact (occupied.acknowledge seg).fillWindow.queued queued hqueued

/-- The first byte after a SYN is acknowledged. -/
theorem reply_discipline_firstByte :
    ∃ c c', execute step listener [.segment { header := { syn := true } }] = .ok c ∧
      c.segmentReceived { header := { seqno := ⟨1⟩ }, payload := [97] } = .ok c' ∧
      ∃ replies, c'.segmentsOut = c.segmentsOut ++ replies ∧ replies ≠ [] ∧
        ∀ out ∈ replies, out.header.ackno = ⟨2⟩ := by
  obtain ⟨c, done, noError, received⟩ : ∃ c, execute step listener
        [.segment { header := { syn := true } }] = .ok c ∧
      (c.sender.stream.error = false ∧ c.receiver.streamOut.error = false) ∧
      EndsIn (c.segmentReceived { header := { seqno := ⟨1⟩ }, payload := [97] })
        (fun c' => c'.receiver.ackno = some ⟨2⟩) :=
    EndsIn.exists_ok (by decide +kernel)
  obtain ⟨c', received, known⟩ := received.exists_ok
  have run := GuardedRun.of_execute (admitted_of_forall (fun _ _ => trivial) _ _) done
  obtain ⟨replies, hout, hack, hanswered, -⟩ :=
    reply_discipline run noError rfl received known
  exact ⟨c, c', done, received, replies, hout, hanswered (by decide), fun out hmem =>
    (hack out hmem).2.1⟩

end TCPConnection

end Sponge
