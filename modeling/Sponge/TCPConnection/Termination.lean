import Sponge.TCPConnection.Lifecycle

/-!
# After the end of a connection

Nothing in the source asks `active()` on entry: the owner is expected to stop calling a
connection that is no longer active.  If it does not, the connection goes on.

* `terminated_connection` — what an inactive connection still does when it is called.
* `terminated_not_silent` — a segment that arrives after the connection has lingered
  long enough makes it linger again and is answered, and a connection that was reset
  still sends what is written to it.

### What is left of a claim of silence

A connection that has ended should be inactive for good and send nothing.  It does neither
in general, and the statement says by how much it fails.  `AfterClose` is a predicate on the
operation: for those of the owner the claim holds as it stands, for a tick it holds unless
the clock wraps around, and for a segment it holds up to one empty acknowledgment and one
more round of lingering.  The exceptions are bounded: no answer carries data, and a bare
acknowledgment that is no keep-alive is not answered at all.

`Finished` is `Closed` without the waiting, and it is what an operation preserves: a segment
may set the clock back, but it cannot put anything in flight again.
-/

namespace Sponge

open Runs

namespace TCPConnection

open TCPSender

section

variable {c c' : TCPConnection}

/-- Emptying a queue that is empty changes nothing. -/
theorem sendAll_of_empty (empty : c.sender.segmentsOut = []) :
    c.sendAllOutboundingSegments = c := by
  unfold sendAllOutboundingSegments
  rw [empty, List.map_nil, List.append_nil, ← empty]

/-- Closed is inactive. -/
theorem Closed.inactive (h : Closed c) : c.active = false :=
  (inactive_iff h.noError).mpr ⟨h.waited, h.idle, h.outEnded, h.inEnded⟩

/-- There is no SYN left to send. -/
theorem Finished.connect (h : Finished c) : c.connect = c := by
  unfold TCPConnection.connect
  rw [fillWindow_of_ended h.finSent]
  exact sendAll_of_empty h.queue

/-- What is written to a closed connection stays in the stream. -/
theorem Finished.write (h : Finished c) (data : List UInt8) :
    (c.write data).2
      = { c with sender := { c.sender with stream := (c.sender.stream.write data).2 } } := by
  have filled : { c.sender with stream := (c.sender.stream.write data).2 }.fillWindow
      = { c.sender with stream := (c.sender.stream.write data).2 } :=
    fillWindow_of_ended h.finSent
  unfold TCPConnection.write
  simp only
  rw [filled]
  exact sendAll_of_empty h.queue

/-- The stream has ended already. -/
theorem Finished.endInputStream (h : Finished c) :
    c.endInputStream
      = { c with sender := { c.sender with stream := c.sender.stream.endInput } } := by
  have filled : { c.sender with stream := c.sender.stream.endInput }.fillWindow
      = { c.sender with stream := c.sender.stream.endInput } := fillWindow_of_ended h.finSent
  unfold TCPConnection.endInputStream
  simp only
  rw [filled]
  split
  · rfl
  · next seg rest queued =>
    have hqueue := h.queue
    rw [show c.sender.segmentsOut = seg :: rest from queued] at hqueue
    cases hqueue

/-- A closed connection has nothing to send again, so it does not give up either. -/
theorem Finished.tick (h : Finished c) (ms : ℕ) :
    c.tick ms = { c with
      timeSinceLastSegReceived := add64 c.timeSinceLastSegReceived ms
      sender := { c.sender with
        curTime := add64 c.sender.curTime ms
        timer := c.sender.timer.tick ms } } := by
  unfold TCPConnection.tick
  simp only
  rw [tick_of_settled h.outstanding ms, if_neg (not_lt.mpr h.retries)]
  exact sendAll_of_empty h.queue

/-- Time does not bring it back, unless its clock wraps around. -/
theorem Closed.tick_inactive (h : Closed c) {ms : ℕ}
    (noWrap : c.lingerAfterStreamsFinish = false ∨ c.timeSinceLastSegReceived + ms < 2 ^ 64) :
    (c.tick ms).active = false := by
  rw [h.tick ms]
  refine (inactive_iff ?_).mpr ⟨?_, h.idle, h.outEnded, h.inEnded⟩
  · exact h.noError
  rcases h.waited with noLinger | waited
  · exact Or.inl noLinger
  · refine noWrap.imp_right fun noWrap => ?_
    show 10 * c.cfg.rtTimeout.toNat ≤ add64 c.timeSinceLastSegReceived ms
    rw [add64_of_lt noWrap]
    omega

/-- Nothing is left to acknowledge. -/
theorem Finished.acknowledge (h : Finished c) (seg : TCPSegment) :
    ∃ windowSize, acknowledge c.sender seg = { c.sender with windowSize := windowSize } := by
  unfold TCPConnection.acknowledge
  split
  · refine ⟨seg.header.win.toNat, if_pos ?_⟩
    rw [h.acked]
    exact le_or_gt _ _
  · exact ⟨_, rfl⟩

/-- An answer of a closed connection is an empty segment that acknowledges. -/
theorem fillIn_empty (heard : c.receiver.isn ≠ none) :
    (c.fillIn { header := { seqno := wrap c.sender.nextSeqno c.sender.isn } }).header.ack = true ∧
      (c.fillIn { header := { seqno := wrap c.sender.nextSeqno c.sender.isn }
        }).lengthInSequenceSpace = 0 := by
  obtain ⟨isn, hisn⟩ := Option.ne_none_iff_exists'.mp heard
  have known : c.receiver.ackno = some (wrap c.receiver.ackPosition isn) := by
    rw [TCPReceiver.ackno, hisn]
  exact ⟨(fillIn_header known _).1, fillIn_length c _⟩

/-- What a segment does to a closed connection once the receiver has taken it. -/
theorem Finished.respond (h : Finished c) (seg : TCPSegment) :
    ∃ windowSize, c.respond seg =
      { c with
        sender := { c.sender with windowSize := windowSize }
        lingerAfterStreamsFinish := c.lingerAfterStreamsFinish && c.sender.stream.eof
        segmentsOut := c.segmentsOut ++
          if seg.lengthInSequenceSpace ≠ 0 then
            [c.fillIn { header := { seqno := wrap c.sender.nextSeqno c.sender.isn } }]
          else [] } := by
  obtain ⟨windowSize, acked⟩ := h.acknowledge seg
  have filled : { c.sender with windowSize := windowSize }.fillWindow
      = { c.sender with windowSize := windowSize } := fillWindow_of_ended h.finSent
  have linger : (if c.receiver.streamOut.inputEnded && !c.sender.stream.eof then false
      else c.lingerAfterStreamsFinish) = (c.lingerAfterStreamsFinish && c.sender.stream.eof) := by
    rw [h.inEnded]
    cases c.sender.stream.eof <;> simp
  have refilled : c.refill seg = { c with
      sender := { c.sender with windowSize := windowSize }
      lingerAfterStreamsFinish := c.lingerAfterStreamsFinish && c.sender.stream.eof } := by
    unfold refill
    simp only [acked, filled, linger]
  refine ⟨windowSize, ?_⟩
  unfold TCPConnection.respond
  rw [refilled]
  simp only [h.queue, List.isEmpty_nil, if_true]
  split
  · simp only [sendAllOutboundingSegments, sendEmptySegment, List.nil_append, List.map_cons,
      List.map_nil]
    rfl
  · rw [List.append_nil]

/-- A finished connection that is active is lingering. -/
theorem Finished.lingers (h : Finished c) (active : c.active = true) :
    c.lingerAfterStreamsFinish = true ∧
      c.timeSinceLastSegReceived < 10 * c.cfg.rtTimeout.toNat := by
  by_contra notLingering
  have inactive : c.active = false := by
    refine (inactive_iff h.noError).mpr ⟨?_, h.idle, h.outEnded, h.inEnded⟩
    rw [not_and_or, Bool.not_eq_true, not_lt] at notLingering
    exact notLingering
  rw [inactive] at active
  cases active

/-- A segment the receiver takes leaves the connection finished. -/
theorem Finished.received (h : Finished c) {seg : TCPSegment} {receiver : TCPReceiver}
    (received : c.receiver.segmentReceived seg = .ok receiver) :
    Finished { c with timeSinceLastSegReceived := 0, receiver := receiver } := by
  have ended := (TCPReceiver.segmentReceived_grown received).ended h.inEnded
  have heard : Heard receiver := Heard.segmentReceived (fun _ => h.heard) received
  exact ⟨⟨h.noError.1, (TCPReceiver.segmentReceived_error received).trans h.noError.2⟩, h.idle,
    h.outEnded, ended, h.finSent, h.queue, h.outstanding, h.acked, h.retries, heard ended⟩

/-- **A segment reaches a finished connection.**  It may linger again, if it lingered
before and has a timeout to wait for; and it answers with at most one empty
acknowledgment. -/
theorem Finished.segmentReceived (h : Finished c) {seg : TCPSegment}
    (noRst : seg.header.rst = false) (received : c.segmentReceived seg = .ok c') :
    (c'.active = true → c.lingerAfterStreamsFinish = true ∧ c.cfg.rtTimeout ≠ 0) ∧
      ∃ replies, c'.segmentsOut = c.segmentsOut ++ replies ∧ replies.length ≤ 1 ∧
        (∀ out ∈ replies, out.header.ack = true ∧ out.lengthInSequenceSpace = 0) ∧
        (seg.lengthInSequenceSpace = 0 → c.isKeepAlive seg = false → replies = []) := by
  have timeout : 0 < 10 * c.cfg.rtTimeout.toNat → c.cfg.rtTimeout ≠ 0 := by
    rintro hpos hzero
    rw [hzero] at hpos
    exact absurd hpos (by decide)
  rcases segmentReceived_branches received with ⟨rst, -⟩ | ⟨-, alive, rfl⟩ |
    ⟨-, -, listen, rfl⟩ | ⟨-, -, -, receiver, hr, rfl⟩
  · rw [noRst] at rst
    cases rst
  · have finished : Finished { c with timeSinceLastSegReceived := 0
                                      sender := c.sender.sendEmptySegment
        }.sendAllOutboundingSegments :=
      ⟨h.noError, h.idle, h.outEnded, h.inEnded, h.finSent, rfl, h.outstanding, h.acked, h.retries,
        h.heard⟩
    refine ⟨fun active => (finished.lingers active).imp_right timeout, _, rfl, ?_, ?_, ?_⟩
    · simp [sendEmptySegment, h.queue]
    · intro out hout
      simp only [sendEmptySegment, h.queue, List.nil_append, List.map_cons, List.map_nil,
        List.mem_singleton] at hout
      rw [hout]
      exact fillIn_empty h.heard
    · intro _ notAlive
      rw [alive] at notAlive
      cases notAlive
  · -- a connection that has heard from its peer does not listen
    have unknown : c.receiver.ackno = none := (ackno_of_listen listen :)
    obtain ⟨isn, hisn⟩ := Option.ne_none_iff_exists'.mp h.heard
    rw [TCPReceiver.ackno, show c.receiver.isn = some isn from hisn] at unknown
    cases unknown
  · have finished := h.received hr
    obtain ⟨windowSize, answered⟩ := finished.respond seg
    rw [answered]
    refine ⟨fun active => ?_, _, rfl, ?_, ?_, ?_⟩
    · have after : Finished { c with
          timeSinceLastSegReceived := 0
          receiver := receiver
          sender := { c.sender with windowSize := windowSize }
          lingerAfterStreamsFinish := c.lingerAfterStreamsFinish && c.sender.stream.eof } :=
        ⟨finished.noError, h.idle, h.outEnded, finished.inEnded, h.finSent, h.queue,
          h.outstanding, h.acked, h.retries, finished.heard⟩
      obtain ⟨linger, waiting⟩ := after.lingers active
      exact ⟨(Bool.and_eq_true_iff.mp linger).1, timeout waiting⟩
    · split <;> simp
    · intro out hout
      split at hout
      · rw [List.mem_singleton.mp hout]
        exact fillIn_empty finished.heard
      · cases hout
    · intro empty _
      rw [if_neg (not_not_intro empty)]

end

/-- What is left of "inactive and silent" when an operation reaches a connection that is
inactive without error. -/
def AfterClose (c c' : TCPConnection) : Op → Prop
  | .connect | .write _ | .endInputStream | .read _ =>
      c'.active = false ∧ c'.segmentsOut = c.segmentsOut
  | .tick ms =>
      (c.lingerAfterStreamsFinish = false ∨ c.timeSinceLastSegReceived + ms < 2 ^ 64 →
        c'.active = false) ∧ c'.segmentsOut = c.segmentsOut
  | .segment seg =>
      (seg.header.rst = true → c'.active = false ∧ c'.segmentsOut = c.segmentsOut) ∧
      (c'.active = true → c.lingerAfterStreamsFinish = true ∧ c.cfg.rtTimeout ≠ 0) ∧
      ∃ replies, c'.segmentsOut = c.segmentsOut ++ replies ∧ replies.length ≤ 1 ∧
        (∀ out ∈ replies, out.header.ack = true ∧ out.lengthInSequenceSpace = 0) ∧
        (seg.lengthInSequenceSpace = 0 → c.isKeepAlive seg = false → replies = [])

/-- Every operation on a closed connection. -/
theorem Closed.step {c c' : TCPConnection} {op : Op} (h : Closed c)
    (stepped : c.step op = .ok c') : AfterClose c c' op := by
  have still : ∀ stream : ByteStream, stream.error = false → stream.inputEnded = true →
      active { c with sender := { c.sender with stream := stream } } = false := by
    intro stream noError ended
    refine (inactive_iff ?_).mpr ⟨h.waited, h.idle, ended, h.inEnded⟩
    exact ⟨noError, h.noError.2⟩
  cases op with
  | connect =>
      obtain rfl := Except.ok.inj stepped
      rw [AfterClose, h.connect]
      exact ⟨h.inactive, rfl⟩
  | write data =>
      obtain rfl := Except.ok.inj stepped
      rw [AfterClose, h.write data]
      exact ⟨still _ h.noError.1 h.outEnded, rfl⟩
  | endInputStream =>
      obtain rfl := Except.ok.inj stepped
      rw [AfterClose, h.endInputStream]
      exact ⟨still _ h.noError.1 rfl, rfl⟩
  | read len =>
      obtain rfl := Except.ok.inj stepped
      refine ⟨(inactive_iff ?_).mpr ⟨h.waited, h.idle, h.outEnded, h.inEnded⟩, rfl⟩
      exact h.noError
  | tick ms =>
      obtain rfl := Except.ok.inj stepped
      exact ⟨h.tick_inactive, by rw [h.tick ms]⟩
  | segment seg =>
      -- a RST is the one segment that makes a difference: it sets the error flags
      cases rst : seg.header.rst with
      | false =>
          refine ⟨fun hrst => ?_, h.segmentReceived rst stepped⟩
          rw [rst] at hrst
          cases hrst
      | true =>
          obtain rfl := Except.ok.inj ((c.segmentReceived_of_rst rst).symm.trans stepped)
          refine ⟨fun _ => ⟨rfl, rfl⟩, fun active => ?_, [], (List.append_nil _).symm, by simp,
            by simp, by simp⟩
          cases active

/-- **What a terminated connection still does.**  Take any state in which `active()` is
false, and any operation that succeeds there.

* After an error it stays inactive, and a RST makes it say nothing.
* After a clean close it stays inactive and says nothing, with two exceptions.  A tick
  can wrap its clock around while it lingers; and a segment without RST makes it linger
  again if it lingered before, and is answered with at most one empty acknowledgment,
  with none if it occupies no sequence numbers and is no keep-alive. -/
theorem terminated_connection {cfg : TCPConfig} (hcap : cfg.sendCapacity < 2 ^ 64)
    {c c' : TCPConnection}
    (run : GuardedRun step (fun c _ => c.sender.nextSeqno < 2 ^ 64) (new cfg) c)
    (inactive : c.active = false) {op : Op} (stepped : c.step op = .ok c') :
    (c.sender.stream.error = true ∨ c.receiver.streamOut.error = true →
      c'.active = false ∧
        ∀ seg, op = .segment seg → seg.header.rst = true → c'.segmentsOut = c.segmentsOut) ∧
    (c.sender.stream.error = false ∧ c.receiver.streamOut.error = false →
      AfterClose c c' op) := by
  have tracked : Tracked c :=
    run.invariant Tracked (tracked_new hcap) fun _ _ _ h guard stepped => h.step guard stepped
  constructor
  · intro error
    have hsender : c.sender.stream.error = true := by
      rcases error with hsender | hreceiver
      · exact hsender
      · exact tracked.errors.trans hreceiver
    refine ⟨?_, ?_⟩
    · unfold active
      rw [step_error stepped hsender]
      rfl
    · rintro seg rfl rst
      obtain rfl := Except.ok.inj ((c.segmentReceived_of_rst rst).symm.trans stepped)
      rfl
  · rintro ⟨noError, -⟩
    exact (tracked.closed inactive noError).step stepped

/-- This end closes first and lingers for ten seconds. -/
def activeClose : List Op :=
  [.connect,
    .segment { header := { seqno := ⟨100⟩, syn := true, ack := true, ackno := ⟨1⟩, win := 1000 } },
    .endInputStream,
    .segment { header := { seqno := ⟨101⟩, fin := true, ack := true, ackno := ⟨2⟩, win := 1000 } },
    .tick 10000]

/-- The peer resets an established connection. -/
def peerReset : List Op :=
  [.connect,
    .segment { header := { seqno := ⟨100⟩, syn := true, ack := true, ackno := ⟨1⟩, win := 1000 } },
    .segment { header := { rst := true } }]

/-- A bare acknowledgment reaches a connection that has lingered long enough. -/
theorem terminated_connection_activeClose :
    ∃ c c', execute step (new { fixedIsn := ⟨0⟩ }) activeClose = .ok c ∧ c.active = false ∧
      c.segmentReceived { header := { seqno := ⟨102⟩, ack := true, ackno := ⟨2⟩ } } = .ok c' ∧
      c'.segmentsOut = c.segmentsOut := by
  obtain ⟨c, done, admitted, inactive, noError, notAlive, received⟩ : ∃ c,
      execute step (new { fixedIsn := ⟨0⟩ }) activeClose = .ok c ∧
      Admitted step (fun c _ => c.sender.nextSeqno < 2 ^ 64) (new { fixedIsn := ⟨0⟩ })
        activeClose ∧
      c.active = false ∧
      (c.sender.stream.error = false ∧ c.receiver.streamOut.error = false) ∧
      c.isKeepAlive { header := { seqno := ⟨102⟩, ack := true, ackno := ⟨2⟩ } } = false ∧
      EndsIn (c.segmentReceived { header := { seqno := ⟨102⟩, ack := true, ackno := ⟨2⟩ } })
        (fun _ => True) :=
    EndsIn.exists_ok (by decide +kernel)
  obtain ⟨c', received, -⟩ := received.exists_ok
  have hcap : 64000 < 2 ^ 64 := by decide
  have stepped : c.step (.segment { header := { seqno := ⟨102⟩, ack := true, ackno := ⟨2⟩ } })
      = .ok c' := received
  obtain ⟨-, -, replies, hout, -, -, hnone⟩ :=
    (terminated_connection hcap (GuardedRun.of_execute admitted done) inactive stepped).2 noError
  refine ⟨c, c', done, inactive, received, ?_⟩
  rw [hout, hnone rfl notAlive, List.append_nil]

/-- **A terminated connection is not silent.**  The FIN of the peer, sent again, wakes a
connection that has lingered long enough, and is answered; and a connection that was
reset still sends what is written to it. -/
theorem terminated_not_silent :
    (∃ c c', GuardedRun step (fun c _ => c.sender.nextSeqno < 2 ^ 64)
        (new { fixedIsn := ⟨0⟩ }) c ∧ c.active = false ∧
      c.segmentReceived { header :=
        { seqno := ⟨101⟩, fin := true, ack := true, ackno := ⟨2⟩, win := 1000 } } = .ok c' ∧
      c'.active = true ∧ c'.segmentsOut.length = c.segmentsOut.length + 1) ∧
    ∃ c, GuardedRun step (fun c _ => c.sender.nextSeqno < 2 ^ 64) (new { fixedIsn := ⟨0⟩ }) c ∧
      c.active = false ∧
      ∃ seg ∈ (c.write [104, 105]).2.segmentsOut.drop c.segmentsOut.length,
        seg.payload = [104, 105] := by
  obtain ⟨c, done, admitted, inactive, received⟩ : ∃ c,
      execute step (new { fixedIsn := ⟨0⟩ }) activeClose = .ok c ∧
      Admitted step (fun c _ => c.sender.nextSeqno < 2 ^ 64) (new { fixedIsn := ⟨0⟩ })
        activeClose ∧
      c.active = false ∧
      EndsIn (c.segmentReceived { header :=
          { seqno := ⟨101⟩, fin := true, ack := true, ackno := ⟨2⟩, win := 1000 } })
        (fun c' => c'.active = true ∧ c'.segmentsOut.length = c.segmentsOut.length + 1) :=
    EndsIn.exists_ok (by decide +kernel)
  obtain ⟨c', received, woken⟩ := received.exists_ok
  refine ⟨⟨c, c', GuardedRun.of_execute admitted done, inactive, received, woken⟩, ?_⟩
  obtain ⟨d, done, admitted, inactive, sent⟩ : ∃ d,
      execute step (new { fixedIsn := ⟨0⟩ }) peerReset = .ok d ∧
      Admitted step (fun c _ => c.sender.nextSeqno < 2 ^ 64) (new { fixedIsn := ⟨0⟩ })
        peerReset ∧
      d.active = false ∧
      ∃ seg ∈ (d.write [104, 105]).2.segmentsOut.drop d.segmentsOut.length,
        seg.payload = [104, 105] :=
    EndsIn.exists_ok (by decide +kernel)
  exact ⟨d, GuardedRun.of_execute admitted done, inactive, sent⟩

end TCPConnection

end Sponge
