import Sponge.TCPConnection.Lifecycle
import Sponge.TCPSegment.Wire

/-!
# What a connection emits

Two facts about the outbound queue that the code around a connection relies on.

* `Plain.step` — every segment on it has a header without options and at most `MAX_PAYLOAD_SIZE`
  bytes of payload, so it fits whatever carries it.
* `step_behind` — nothing depends on what is in the queue: whether its owner has taken segments off
  it or not, a connection does the same.  What is known of a connection whose queue is never
  emptied is thus known of one whose queue is.

### What the second fact is for

The invariants of a connection speak about all it has ever emitted, and are proved for a
connection whose queue only grows.  A socket takes segments off the queue as soon as it can
send them.  `behind` puts them back: a run of the socket is a run of the connection in which
nothing was taken, with the segments taken so far in front of the queue, and so the socket
inherits every result about runs of a connection.

The proof is a walk through the operations.  Each of them appends to the queue and none of
them reads it, but that has to be said for each function once.
-/

namespace Sponge

/-- A segment without options, and with no more payload than the sender puts into one.  This is
what makes a segment of this stack fit an IPv4 datagram. -/
structure TCPSegment.Plain (seg : TCPSegment) : Prop where
  doff : seg.header.doff = 5
  payload : seg.payload.length ≤ TCPConfig.maxPayloadSize

open TCPSegment (Plain)

/-! ## The sender -/

namespace TCPSender

/-- Everything queued or outstanding is plain. -/
structure PlainQueues (s : TCPSender) : Prop where
  segmentsOut : ∀ seg ∈ s.segmentsOut, Plain seg
  outstanding : ∀ seg ∈ s.outstandingSegments, Plain seg

theorem plain_new (capacity : ℕ) (retxTimeout : UInt16) (isn : WrappingInt32) :
    PlainQueues (new capacity retxTimeout isn) :=
  ⟨fun _ h => absurd h List.not_mem_nil, fun _ h => absurd h List.not_mem_nil⟩

/-- A pass leaves the data offset of the reused segment alone, and loads it with no more payload
than fits. -/
theorem plain_fillStep {window : ℕ} {s : TCPSender} {seg : TCPSegment} (h : PlainQueues s)
    (doff : seg.header.doff = 5) :
    PlainQueues (s.fillStep window seg).1 ∧ (s.fillStep window seg).2.header.doff = 5 := by
  have stamped : (s.stamp seg).2.header.doff = 5 ∧
      (s.stamp seg).1.segmentsOut = s.segmentsOut ∧
      (s.stamp seg).1.outstandingSegments = s.outstandingSegments := by
    unfold stamp
    split <;> exact ⟨doff, rfl, rfl⟩
  have loaded : ∀ (s : TCPSender) (seg : TCPSegment),
      (s.load window seg).2.payload.length ≤ TCPConfig.maxPayloadSize := by
    intro s seg
    simp only [load, ByteStream.read, ByteStream.peekOutput, List.length_take]
    omega
  have finished : ∀ (s : TCPSender) (seg : TCPSegment),
      (s.finish window seg).2.header.doff = seg.header.doff ∧
        (s.finish window seg).2.payload = seg.payload ∧
        (s.finish window seg).1.segmentsOut = s.segmentsOut ∧
        (s.finish window seg).1.outstandingSegments = s.outstandingSegments := by
    intro s seg
    unfold finish
    split <;> exact ⟨rfl, rfl, rfl, rfl⟩
  obtain ⟨hdoff, hqueue, hout⟩ := stamped
  simp only [fillStep]
  obtain ⟨hdoff', hpayload, hqueue', hout'⟩ := finished
    ((s.stamp seg).1.load window (s.stamp seg).2).1 ((s.stamp seg).1.load window (s.stamp seg).2).2
  have plain : Plain (((s.stamp seg).1.load window (s.stamp seg).2).1.finish window
      ((s.stamp seg).1.load window (s.stamp seg).2).2).2 :=
    ⟨hdoff'.trans hdoff, hpayload ▸ loaded _ _⟩
  refine ⟨?_, hdoff'.trans hdoff⟩
  -- the stages before have left both queues alone; this one adds the segment to both
  unfold emit
  split
  · refine ⟨fun x hx => ?_, fun x hx => ?_⟩
    · rw [show _ = s.segmentsOut ++ [_] from congrArg (· ++ _) (hqueue'.trans hqueue)] at hx
      rcases List.mem_append.mp hx with hx | hx
      · exact h.segmentsOut x hx
      · exact List.mem_singleton.mp hx ▸ plain
    · rw [show _ = s.outstandingSegments ++ [_] from congrArg (· ++ _) (hout'.trans hout)] at hx
      rcases List.mem_append.mp hx with hx | hx
      · exact h.outstanding x hx
      · exact List.mem_singleton.mp hx ▸ plain
  · exact ⟨fun x hx => h.segmentsOut x ((hqueue'.trans hqueue) ▸ hx),
      fun x hx => h.outstanding x ((hout'.trans hout) ▸ hx)⟩

/-- By induction over the passes: the object that is passed on keeps its offset. -/
theorem plain_fillLoop {window : ℕ} {s : TCPSender} {seg : TCPSegment} (h : PlainQueues s)
    (doff : seg.header.doff = 5) : PlainQueues (fillLoop window s seg) := by
  induction s, seg using fillLoop.induct window with
  | case1 s seg ended =>
      rw [fillLoop, if_pos ended]
      exact h
  | case2 s seg going more ih =>
      rw [fillLoop, if_neg going, dif_pos more]
      exact ih (plain_fillStep h doff).1 (plain_fillStep h doff).2
  | case3 s seg going done =>
      rw [fillLoop, if_neg going, dif_neg done]
      exact (plain_fillStep h doff).1

/-- The segment object that `fill_window` starts with has no options. -/
theorem PlainQueues.fillWindow {s : TCPSender} (h : PlainQueues s) : PlainQueues s.fillWindow := by
  unfold TCPSender.fillWindow
  split
  · exact h
  · exact plain_fillLoop h rfl

/-- What is sent again was outstanding. -/
theorem PlainQueues.tick {s : TCPSender} (h : PlainQueues s) (ms : ℕ) :
    PlainQueues (s.tick ms) := by
  obtain ⟨again, hqueue, hagain, frame⟩ := s.tick_effect ms
  refine ⟨fun seg hseg => ?_, fun seg hseg => ?_⟩
  · rw [hqueue] at hseg
    rcases List.mem_append.mp hseg with hseg | hseg
    · exact h.segmentsOut seg hseg
    · exact h.outstanding seg (hagain seg hseg)
  · rw [frame] at hseg
    exact h.outstanding seg hseg

theorem PlainQueues.sendEmptySegment {s : TCPSender} (h : PlainQueues s) :
    PlainQueues s.sendEmptySegment := by
  refine ⟨fun seg hseg => ?_, h.outstanding⟩
  rcases List.mem_append.mp hseg with hseg | hseg
  · exact h.segmentsOut seg hseg
  · rw [List.mem_singleton.mp hseg]
    exact ⟨rfl, Nat.zero_le _⟩

end TCPSender

namespace TCPConnection

open TCPSender

/-! ## The shape of the segments -/

/-- Everything emitted, queued or outstanding is plain. -/
structure Plain (c : TCPConnection) : Prop where
  sender : PlainQueues c.sender
  emitted : ∀ seg ∈ c.segmentsOut, seg.Plain

theorem plain_new (cfg : TCPConfig) : Plain (new cfg) :=
  ⟨TCPSender.plain_new _ _ _, fun _ h => absurd h List.not_mem_nil⟩

/-- What the connection fills in changes neither the data offset nor the payload. -/
theorem plain_fillIn {c : TCPConnection} {seg : TCPSegment} (h : seg.Plain) :
    (c.fillIn seg).Plain := by
  unfold fillIn
  cases c.receiver.ackno <;> exact ⟨h.doff, h.payload⟩

section

variable {c : TCPConnection}

/-- Moving the queue keeps every segment plain. -/
theorem Plain.sendAll (h : Plain c) : Plain c.sendAllOutboundingSegments := by
  refine ⟨⟨fun _ hseg => absurd hseg List.not_mem_nil, h.sender.outstanding⟩, fun seg hseg => ?_⟩
  rcases List.mem_append.mp hseg with hseg | hseg
  · exact h.emitted seg hseg
  · obtain ⟨seg', hseg', rfl⟩ := List.mem_map.mp hseg
    exact plain_fillIn (h.sender.segmentsOut seg' hseg')

theorem Plain.withSender (h : Plain c) {s : TCPSender} (hs : PlainQueues s) :
    Plain { c with sender := s } :=
  ⟨hs, h.emitted⟩

/-- The RST is a segment of the queue. -/
theorem Plain.sendRst (h : Plain c) : Plain c.sendRstSegmenet := by
  have hs := h.sender.sendEmptySegment
  unfold sendRstSegmenet
  simp only
  split
  · next seg rest hqueue =>
    have queued : ∀ x ∈ seg :: rest, x.Plain := hqueue ▸ hs.segmentsOut
    obtain ⟨first, others⟩ := List.forall_mem_cons.mp queued
    refine ⟨⟨others, hs.outstanding⟩, fun x hx => ?_⟩
    rcases List.mem_append.mp hx with hx | hx
    · exact h.emitted x hx
    · rw [List.mem_singleton.mp hx]
      exact ⟨first.doff, first.payload⟩
  · exact h.withSender hs

/-- An acknowledgment pops segments and adds none. -/
theorem Plain.acknowledge (h : PlainQueues c.sender) (seg : TCPSegment) :
    PlainQueues (acknowledge c.sender seg) := by
  obtain ⟨suffix, frame⟩ := acknowledge_effect c.sender seg
  refine ⟨fun x hx => ?_, fun x hx => h.outstanding x (suffix.subset hx)⟩
  rw [frame] at hx
  exact h.segmentsOut x hx

theorem Plain.respond (h : Plain c) (seg : TCPSegment) : Plain (c.respond seg) :=
  respond_rule ⟨(Plain.acknowledge h.sender seg).fillWindow, h.emitted⟩
    (fun _ h => h.withSender h.sender.sendEmptySegment) fun _ h => h.sendAll

end

/-- **Whatever is called, all segments are plain.**  Segments are made in two places, by
`fill_window` and by `send_empty_segment`; everything else moves them, fills in an acknowledgment
or sets RST. -/
theorem Plain.step {c c' : TCPConnection} {op : Op} (h : Plain c) (stepped : c.step op = .ok c') :
    Plain c' := by
  have fill : ∀ stream : ByteStream,
      Plain { c with sender := { c.sender with stream := stream }.fillWindow } := fun stream =>
    h.withSender (PlainQueues.fillWindow ⟨h.sender.segmentsOut, h.sender.outstanding⟩)
  cases op with
  | connect =>
      obtain rfl := Except.ok.inj stepped
      exact (fill c.sender.stream).sendAll
  | write data =>
      obtain rfl := Except.ok.inj stepped
      exact (fill (c.sender.stream.write data).2).sendAll
  | endInputStream =>
      obtain rfl := Except.ok.inj stepped
      have filled := fill c.sender.stream.endInput
      unfold endInputStream
      simp only
      split
      · exact filled
      · split
        · exact filled.sendAll
        · exact filled
  | tick ms =>
      obtain rfl := Except.ok.inj stepped
      have ticked : Plain { c with
          timeSinceLastSegReceived := add64 c.timeSinceLastSegReceived ms
          sender := c.sender.tick ms } := ⟨h.sender.tick ms, h.emitted⟩
      unfold TCPConnection.tick
      simp only
      split
      · have rst := ticked.sendRst
        exact ⟨⟨rst.sender.segmentsOut, rst.sender.outstanding⟩, rst.emitted⟩
      · exact ticked.sendAll
  | read len =>
      obtain rfl := Except.ok.inj stepped
      exact ⟨h.sender, h.emitted⟩
  | segment seg =>
      rcases segmentReceived_cases stepped with rfl | rfl | rfl | ⟨receiver, -, -, rfl⟩
      · exact ⟨⟨h.sender.segmentsOut, h.sender.outstanding⟩, h.emitted⟩
      · exact Plain.sendAll ⟨h.sender.sendEmptySegment, h.emitted⟩
      · exact ⟨h.sender, h.emitted⟩
      · have taken : Plain { c with timeSinceLastSegReceived := 0, receiver := receiver } :=
          ⟨h.sender, h.emitted⟩
        exact taken.respond seg

/-! ## The queue does not matter -/

/-- The connection, had `earlier` not been taken off its queue. -/
def behind (earlier : List TCPSegment) (c : TCPConnection) : TCPConnection :=
  { c with segmentsOut := earlier ++ c.segmentsOut }

section

variable (earlier : List TCPSegment) (c : TCPConnection)

/-- Emptying the sender's queue appends at the end. -/
theorem sendAll_behind :
    (c.behind earlier).sendAllOutboundingSegments
      = c.sendAllOutboundingSegments.behind earlier := by
  simp only [sendAllOutboundingSegments, behind, List.append_assoc]
  rfl

theorem sendRst_behind :
    (c.behind earlier).sendRstSegmenet = c.sendRstSegmenet.behind earlier := by
  unfold sendRstSegmenet
  simp only [behind]
  split
  · simp only [List.append_assoc]
  · rfl

/-- An answer looks at the queue of the sender only. -/
theorem respond_behind (seg : TCPSegment) :
    (c.behind earlier).respond seg = (c.respond seg).behind earlier := by
  unfold respond
  have same : (c.behind earlier).refill seg = (c.refill seg).behind earlier := rfl
  simp only [same]
  by_cases empty : (c.refill seg).sender.segmentsOut.isEmpty = true
  · have empty' : ((c.refill seg).behind earlier).sender.segmentsOut.isEmpty = true := empty
    rw [if_pos empty, if_pos empty']
    split
    · exact sendAll_behind earlier { c.refill seg with
        sender := (c.refill seg).sender.sendEmptySegment }
    · rfl
  · have empty' : ¬((c.refill seg).behind earlier).sender.segmentsOut.isEmpty = true := empty
    rw [if_neg empty, if_neg empty']
    exact sendAll_behind earlier (c.refill seg)

/-- The same as one expression. -/
theorem segmentReceived_eq (seg : TCPSegment) :
    c.segmentReceived seg =
      if seg.header.rst then .ok { c with timeSinceLastSegReceived := 0 }.setErrors
      else if c.isKeepAlive seg then
        .ok { c with
          timeSinceLastSegReceived := 0
          sender := c.sender.sendEmptySegment }.sendAllOutboundingSegments
      else if { c with timeSinceLastSegReceived := 0 }.state = TCPState.ofState .listen ∧
          seg.header.syn = false then
        .ok { c with timeSinceLastSegReceived := 0 }
      else (c.receiver.segmentReceived seg).map fun receiver =>
        { c with timeSinceLastSegReceived := 0, receiver := receiver }.respond seg := by
  unfold segmentReceived
  simp only
  cases c.receiver.segmentReceived seg <;> rfl

/-- A segment is received alike, failures included. -/
theorem segmentReceived_behind (seg : TCPSegment) :
    (c.behind earlier).segmentReceived seg
      = (c.segmentReceived seg).map (behind earlier) := by
  set fresh : TCPConnection := { c with timeSinceLastSegReceived := 0 } with hfresh
  -- neither the keep-alive nor the LISTEN check looks at the queue
  have taken : (c.behind earlier).segmentReceived seg =
      if seg.header.rst then .ok (fresh.setErrors.behind earlier)
      else if c.isKeepAlive seg then
        .ok ({ fresh with sender := fresh.sender.sendEmptySegment }.behind
          earlier).sendAllOutboundingSegments
      else if fresh.state = TCPState.ofState .listen ∧ seg.header.syn = false then
        .ok (fresh.behind earlier)
      else (c.receiver.segmentReceived seg).map fun receiver =>
        ({ fresh with receiver := receiver }.behind earlier).respond seg :=
    segmentReceived_eq (c.behind earlier) seg
  rw [taken, segmentReceived_eq, ← hfresh]
  simp only [sendAll_behind, respond_behind]
  split
  · rfl
  split
  · rfl
  split
  · rfl
  cases c.receiver.segmentReceived seg <;> rfl

/-- **What has been taken off the queue makes no difference.**  A connection only appends to its
queue and never looks at it, so an invariant that speaks of all that was ever sent also holds of a
connection whose queue is emptied meanwhile. -/
theorem step_behind (op : Op) :
    (c.behind earlier).step op = (c.step op).map (behind earlier) := by
  cases op with
  | connect =>
      exact congrArg Except.ok (sendAll_behind earlier { c with sender := c.sender.fillWindow })
  | write data =>
      have filled := sendAll_behind earlier { c with
        sender := { c.sender with stream := (c.sender.stream.write data).2 }.fillWindow }
      exact congrArg Except.ok filled
  | endInputStream =>
      refine congrArg Except.ok ?_
      unfold endInputStream
      simp only [behind]
      split
      · rfl
      · split
        · exact sendAll_behind earlier { c with
            sender := { c.sender with stream := c.sender.stream.endInput }.fillWindow }
        · rfl
  | tick ms =>
      refine congrArg Except.ok ?_
      set ticked : TCPConnection := { c with
        timeSinceLastSegReceived := add64 c.timeSinceLastSegReceived ms
        sender := c.sender.tick ms } with hticked
      have taken : (c.behind earlier).tick ms =
          if ticked.sender.consecutiveRetransTimes > TCPConfig.maxRetxAttempts then
            (ticked.behind earlier).sendRstSegmenet.setErrors
          else (ticked.behind earlier).sendAllOutboundingSegments := rfl
      rw [taken, TCPConnection.tick, ← hticked]
      simp only [sendAll_behind, sendRst_behind]
      split <;> rfl
  | read len => rfl
  | segment seg => exact segmentReceived_behind earlier c seg

end

end TCPConnection

end Sponge
