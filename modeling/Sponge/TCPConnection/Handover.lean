import Sponge.TCPSender.Window
import Sponge.TCPConnection.Machine

/-!
# From the sender to the connection

A sender puts what it generates on a queue of its own, and each operation of the
connection decides for itself whether to move that queue to the connection's.  Most do;
`end_input_stream` moves it only if there is a FIN at its front, and a connection that
gives up takes one segment for its RST and leaves the rest.

* `handover` — an operation hands over all that the sender generated, once and in order,
  **exactly if** it `Drains`: a stream is only ended after the SYN is sent, and no tick
  makes one retransmission too many.
* `stranded` — what is left behind otherwise.

That `end_input_stream` moves everything else rests on the sender being `Exhausted`
between any two operations: a stream that ends then adds the FIN, and nothing in front
of it.

### Why an equivalence

One direction says that the operations which drain leave nothing behind.  The other is what
makes the two conditions worth naming: there is no third operation that strands something by
accident, and no run in which one of the two happens to be harmless.

### What the sender generates

`generated` is the sender after the same calls with the queue never emptied.  It is written
next to `step` and not derived from it, so that *handed over* compares two computations:
what the sender would have on its queue, and what the connection has put on its own.
-/

namespace Sponge

open Runs

namespace TCPSender

/-- The tick makes a retransmission that is counted, and the connection allows no more. -/
def ExceedsRetries (s : TCPSender) (ms : ℕ) : Prop :=
  TCPConfig.maxRetxAttempts ≤ s.consecutiveRetransTimes ∧ s.windowSize ≠ 0 ∧
    s.outstandingSegments ≠ [] ∧ (s.timer.tick ms).expired = true

instance (s : TCPSender) (ms : ℕ) : Decidable (s.ExceedsRetries ms) :=
  inferInstanceAs (Decidable (_ ∧ _))

/-- **What a tick sends and counts**: the oldest outstanding segment when the timer expires,
counted unless the window is closed.  Probing a closed window therefore never makes a connection
give up. -/
theorem tick_sends (s : TCPSender) (ms : ℕ) :
    (∃ seg, s.outstandingSegments ≠ [] ∧ (s.timer.tick ms).expired = true ∧
      (s.tick ms).segmentsOut = s.segmentsOut ++ [seg] ∧
      (s.tick ms).consecutiveRetransTimes =
        if s.windowSize ≠ 0 then (s.consecutiveRetransTimes + 1) % 2 ^ 32
        else s.consecutiveRetransTimes) ∨
    (¬ (s.outstandingSegments ≠ [] ∧ (s.timer.tick ms).expired = true) ∧
      (s.tick ms).consecutiveRetransTimes = s.consecutiveRetransTimes) := by
  unfold TCPSender.tick
  simp only
  split
  · next seg rest expired outstanding =>
    refine Or.inl ⟨seg, ?_, expired, ?_, ?_⟩
    · rw [outstanding]
      exact List.cons_ne_nil seg rest
    · split <;> rfl
    · split <;> rfl
  · next quiet =>
    refine Or.inr ⟨fun ⟨outstanding, expired⟩ => ?_, rfl⟩
    obtain ⟨seg, rest, houtstanding⟩ := List.exists_cons_of_ne_nil outstanding
    exact quiet seg rest expired houtstanding

/-- Up to the last allowed one, a retransmission that exceeds is one that takes the count
past the limit. -/
theorem exceedsRetries_iff {s : TCPSender} {ms : ℕ}
    (retries : s.consecutiveRetransTimes ≤ TCPConfig.maxRetxAttempts) :
    s.ExceedsRetries ms ↔
      TCPConfig.maxRetxAttempts < (s.tick ms).consecutiveRetransTimes := by
  have hmax : TCPConfig.maxRetxAttempts = 8 := rfl
  rcases s.tick_sends ms with ⟨seg, outstanding, expired, -, hcount⟩ | ⟨quiet, hcount⟩
  · rw [hcount]
    split
    · next opened =>
      have hmod := Nat.mod_eq_of_lt (show s.consecutiveRetransTimes + 1 < 2 ^ 32 by omega)
      rw [hmod, Nat.lt_succ_iff]
      exact ⟨fun h => h.1, fun h => ⟨h, opened, outstanding, expired⟩⟩
    · next closed => exact ⟨fun h => absurd h.2.1 closed, fun h => absurd retries (not_le.mpr h)⟩
  · rw [hcount]
    exact ⟨fun h => absurd h.2.2 quiet, fun h => absurd retries (not_le.mpr h)⟩

/-- The retransmission is on the queue. -/
theorem ExceedsRetries.queued {s : TCPSender} {ms : ℕ} (h : s.ExceedsRetries ms) :
    ∃ seg, (s.tick ms).segmentsOut = s.segmentsOut ++ [seg] := by
  rcases s.tick_sends ms with ⟨seg, -, -, hqueue, -⟩ | ⟨quiet, -⟩
  · exact ⟨seg, hqueue⟩
  · exact absurd h.2.2 quiet

/-- **The end of the stream adds the FIN, and nothing in front of it.** -/
theorem Exhausted.fin_of_endInput {W : List UInt8} {s : TCPSender} (h : s.Exhausted)
    (inv : s.stream.Inv) (sent : s.nextSeqno ≠ 0) {new : List TCPSegment}
    (filled : Filled W { s with stream := s.stream.endInput } new
      { s with stream := s.stream.endInput }.fillWindow) :
    ∀ seg ∈ new, seg.header.fin = true := by
  rcases h with ended | full | ⟨empty, -⟩
  · simp [filled.stopped ended]
  · have same : { s with stream := s.stream.endInput }.fillWindow
        = { s with stream := s.stream.endInput } := if_pos full
    have hout := filled.segmentsOut
    rw [same] at hout
    simp [List.self_eq_append_right.mp hout]
  · intro seg hseg
    exact filled.fin_of_empty sent (inv.bufferEmpty_iff.mp empty) hseg

end TCPSender

namespace TCPConnection

open TCPSender

/-! ## What the sender generates -/

/-- The sender after the calls that an operation makes on it, with all they generate
still on its queue. -/
def generated (c : TCPConnection) : Op → TCPSender
  | .connect => c.sender.fillWindow
  | .write data => { c.sender with stream := (c.sender.stream.write data).2 }.fillWindow
  | .endInputStream => { c.sender with stream := c.sender.stream.endInput }.fillWindow
  | .tick ms =>
      if (c.sender.tick ms).consecutiveRetransTimes > TCPConfig.maxRetxAttempts then
        (c.sender.tick ms).sendEmptySegment
      else c.sender.tick ms
  | .read _ => c.sender
  | .segment seg =>
      if seg.header.rst = true then c.sender
      else if c.isKeepAlive seg = true then c.sender.sendEmptySegment
      else if { c with timeSinceLastSegReceived := 0 }.state = TCPState.ofState .listen ∧
          seg.header.syn = false then c.sender
      else answer c.sender seg

/-- **Nothing is stranded**: the queue of the sender is empty, and all it generated has
been moved to the queue of the connection, in order, with the receiver's fields filled
in. -/
structure HandedOver (c : TCPConnection) (op : Op) (c' : TCPConnection) : Prop where
  queue : c'.sender.segmentsOut = []
  moved : c'.segmentsOut = c.segmentsOut ++ (c.generated op).segmentsOut.map c'.fillIn

/-- The operation leaves nothing behind: the SYN is sent before the stream is ended, and
the connection does not give up. -/
def Drains (c : TCPConnection) : Op → Prop
  | .endInputStream => c.sender.nextSeqno ≠ 0
  | .tick ms => ¬ c.sender.ExceedsRetries ms
  | .connect | .write _ | .read _ | .segment _ => True

instance decidableDrains (c : TCPConnection) : ∀ op, Decidable (c.Drains op)
  | .endInputStream => inferInstanceAs (Decidable (_ ≠ _))
  | .tick _ => inferInstanceAs (Decidable (¬ _))
  | .connect | .write _ | .read _ | .segment _ => inferInstanceAs (Decidable True)

/-- What holds as long as every operation drains.  The queue of the sender is empty between the
operations, so what an operation generates is exactly what it puts out. -/
structure Clear (c : TCPConnection) : Prop where
  outbound : ∃ W, Outbound W c
  queue : c.sender.segmentsOut = []
  exhausted : c.sender.Exhausted
  retries : c.sender.consecutiveRetransTimes ≤ TCPConfig.maxRetxAttempts

/-- A new connection has nothing queued and a window of one. -/
theorem clear_new {cfg : TCPConfig} (hcap : cfg.sendCapacity < 2 ^ 64) : Clear (new cfg) where
  outbound := ⟨[], outbound_new hcap⟩
  queue := rfl
  exhausted := Or.inr (Or.inr ⟨rfl, rfl⟩)
  retries := Nat.zero_le _

/-! ## What an operation leaves on the queue -/

/-- The receiver's fields depend on nothing but the receiver. -/
theorem fillIn_congr {c c' : TCPConnection} (h : c'.receiver = c.receiver) :
    c'.fillIn = c.fillIn := by
  funext seg
  simp only [fillIn, h]

section Step

variable {c c' : TCPConnection}

/-- The end of the stream is followed by the FIN, if by anything. -/
theorem Clear.endInputStream (h : Clear c) (sent : c.sender.nextSeqno ≠ 0) :
    c.endInputStream = { c with
      sender := c.generated .endInputStream }.sendAllOutboundingSegments := by
  obtain ⟨W, outbound⟩ := h.outbound
  have synced := outbound.sound.inv.toSynced.endInput
  obtain ⟨new, filled, -⟩ := synced.fillWindow (outbound.synAlone _)
  have hqueue : { c.sender with stream := c.sender.stream.endInput }.fillWindow.segmentsOut
      = new := filled.segmentsOut.trans (congrArg (· ++ new) h.queue)
  have hfin := h.exhausted.fin_of_endInput outbound.sound.inv.buffers.inv sent filled
  unfold TCPConnection.endInputStream
  simp only
  split
  · next none =>
    -- nothing to move
    unfold sendAllOutboundingSegments generated
    simp only [none, List.map_nil, List.append_nil]
    rw [← none]
  · next seg rest hcons =>
    have : seg.header.fin = true := by
      refine hfin seg ?_
      rw [← hqueue, hcons]
      exact List.mem_cons_self
    rw [if_pos this]
    rfl

/-- **An operation that drains** leaves the sender as its calls did, but for the queue, and has
moved the queue.  The error flag of its stream is left open, because a RST that arrives sets it.
-/
theorem Clear.drained (h : Clear c) {op : Op} (drains : c.Drains op)
    (stepped : c.step op = .ok c') :
    c'.segmentsOut = c.segmentsOut ++ (c.generated op).segmentsOut.map c'.fillIn ∧
      ∃ error, c'.sender = { c.generated op with
        segmentsOut := []
        stream := { (c.generated op).stream with error := error } } := by
  cases op with
  | connect =>
      obtain rfl := Except.ok.inj stepped
      exact ⟨rfl, _, rfl⟩
  | write data =>
      obtain rfl := Except.ok.inj stepped
      exact ⟨rfl, _, rfl⟩
  | endInputStream =>
      obtain rfl := Except.ok.inj stepped
      rw [h.endInputStream drains]
      exact ⟨rfl, _, rfl⟩
  | tick ms =>
      obtain rfl := Except.ok.inj stepped
      have going : ¬ (c.sender.tick ms).consecutiveRetransTimes > TCPConfig.maxRetxAttempts :=
        fun exceeded => drains ((exceedsRetries_iff h.retries).mpr exceeded)
      unfold TCPConnection.tick generated
      simp only
      rw [if_neg going, if_neg going]
      exact ⟨rfl, _, rfl⟩
  | read len =>
      obtain rfl := Except.ok.inj stepped
      refine ⟨?_, c.sender.stream.error, ?_⟩
      · rw [generated, h.queue]
        exact (List.append_nil _).symm
      · rw [generated, ← h.queue]
        rfl
  | segment seg =>
      rcases segmentReceived_branches stepped with ⟨rst, rfl⟩ | ⟨noRst, alive, rfl⟩ |
        ⟨noRst, noSyn, listen, rfl⟩ | ⟨noRst, notAlive, taken, receiver, -, rfl⟩
      · rw [generated, if_pos rst, h.queue]
        exact ⟨(List.append_nil _).symm, true, by rw [← h.queue]; rfl⟩
      · rw [generated, if_neg (by simp [noRst]), if_pos alive]
        exact ⟨rfl, _, rfl⟩
      · -- in LISTEN there is nothing to acknowledge, so nothing to keep alive
        have unknown : c.receiver.ackno = none := (ackno_of_listen listen :)
        have notAlive : c.isKeepAlive seg = false := by
          rw [isKeepAlive, unknown]
        rw [generated, if_neg (by simp [noRst]), if_neg (by simp [notAlive]),
          if_pos ⟨listen, noSyn⟩, h.queue]
        exact ⟨(List.append_nil _).symm, c.sender.stream.error, by rw [← h.queue]⟩
      · have hgen : c.generated (.segment seg) = answer c.sender seg := by
          rw [generated, if_neg (by simp [noRst]), if_neg (by simp [notAlive]), if_neg taken]
        obtain ⟨hsender, hout⟩ := respond_answers
          { c with timeSinceLastSegReceived := 0, receiver := receiver } seg
        rw [hgen]
        refine ⟨?_, (answer c.sender seg).stream.error, hsender⟩
        rw [hout, fillIn_congr (respond_receiver _ seg)]

/-- A segment finds the sender as it was or has its window filled; the rest is on the
queue. -/
theorem generated_segment (c : TCPConnection) (seg : TCPSegment) :
    ∃ s queue, (s = c.sender ∨ s = (acknowledge c.sender seg).fillWindow) ∧
      c.generated (.segment seg) = { s with segmentsOut := queue } := by
  unfold generated answer
  simp only
  split
  · exact ⟨_, _, Or.inl rfl, rfl⟩
  split
  · exact ⟨_, _, Or.inl rfl, rfl⟩
  split
  · exact ⟨_, _, Or.inl rfl, rfl⟩
  split
  · exact ⟨_, _, Or.inr rfl, rfl⟩
  · exact ⟨_, _, Or.inr rfl, rfl⟩

/-- The calls of an operation leave the sender exhausted. -/
theorem Clear.exhausted_generated (h : Clear c) (op : Op) : (c.generated op).Exhausted := by
  obtain ⟨W, outbound⟩ := h.outbound
  have restocked : ∀ {stream : ByteStream}, c.Restocked op stream →
      { c.sender with stream := stream }.fillWindow.Exhausted :=
    fun restocked => (outbound.restocked restocked).exhausts (outbound.synAlone _)
  cases op with
  | connect => exact restocked (show c.Restocked .connect c.sender.stream from rfl)
  | write data => exact restocked rfl
  | endInputStream => exact restocked rfl
  | tick ms =>
      have ticked : (c.sender.tick ms).Exhausted := by
        obtain ⟨-, -, -, frame⟩ := c.sender.tick_effect ms
        rw [frame]
        exact h.exhausted
      rw [generated]
      split
      · exact ticked
      · exact ticked
  | read len => exact h.exhausted
  | segment seg =>
      obtain ⟨s, queue, rfl | rfl, hgen⟩ := c.generated_segment seg
      · rw [hgen]
        exact h.exhausted
      · rw [hgen]
        exact (outbound.synced_acknowledge seg).exhausts (outbound.synAlone_acknowledge seg)

/-- As long as no retransmission exceeds the limit, the count stays within it. -/
theorem Clear.retries_generated (h : Clear c) {op : Op} (drains : c.Drains op) :
    (c.generated op).consecutiveRetransTimes ≤ TCPConfig.maxRetxAttempts := by
  have filled : ∀ s : TCPSender, s.fillWindow.consecutiveRetransTimes
      = s.consecutiveRetransTimes := fun s => by rw [s.fillWindow_queued.frame]
  cases op with
  | connect => exact (filled _).trans_le h.retries
  | write data => exact (filled _).trans_le h.retries
  | endInputStream => exact (filled _).trans_le h.retries
  | tick ms =>
      have going := mt (exceedsRetries_iff h.retries).mpr drains
      rw [generated, if_neg going]
      exact not_lt.mp going
  | read len => exact h.retries
  | segment seg =>
      obtain ⟨s, queue, rfl | rfl, hgen⟩ := c.generated_segment seg
      · rw [hgen]
        exact h.retries
      · rw [hgen]
        exact (filled _).trans_le ((acknowledge_retries c.sender seg).trans h.retries)

/-- An operation that drains leaves the connection clear. -/
theorem Clear.step (h : Clear c) {op : Op} (hnext : c.sender.nextSeqno < 2 ^ 64)
    (drains : c.Drains op) (stepped : c.step op = .ok c') : Clear c' := by
  obtain ⟨W, outbound⟩ := h.outbound
  obtain ⟨-, error, hsender⟩ := h.drained drains stepped
  refine ⟨⟨_, (outbound.step hnext stepped).outbound⟩, ?_, ?_, ?_⟩
  · rw [hsender]
  · rw [hsender]
    exact h.exhausted_generated op
  · rw [hsender]
    exact h.retries_generated drains

/-- The SYN that `end_input_stream` makes the sender generate stays on its queue: the
window has no room for a FIN beside it. -/
theorem Clear.stranded_syn (h : Clear c) (unsent : c.sender.nextSeqno = 0) :
    c.endInputStream.sender.segmentsOut ≠ [] := by
  obtain ⟨W, outbound⟩ := h.outbound
  have synced := outbound.sound.inv.toSynced.endInput
  obtain ⟨new, filled, -, sent⟩ := synced.fillWindow (outbound.synAlone _)
  obtain ⟨first, -, flight, -⟩ := outbound.sound.inv.inFlight
  have hle := outbound.first_fill synced unsent
  have hsent := sent (show c.sender.bytesInFlight = 0 by omega)
  have hqueue : { c.sender with stream := c.sender.stream.endInput }.fillWindow.segmentsOut
      = new := filled.segmentsOut.trans (congrArg (· ++ new) h.queue)
  have placed := filled.placed
  cases new with
  | nil => exact absurd (placed.symm.trans unsent) hsent
  | cons seg rest =>
      have hat := placed.1
      have hstop := ((Nat.le_add_left _ _).trans placed.2.le).trans hle
      have noFin : seg.header.fin = false := by
        refine Bool.eq_false_iff.mpr fun hfin => ?_
        have hlen : 2 ≤ seg.lengthInSequenceSpace := by
          rw [TCPSegment.lengthInSequenceSpace, if_pos hfin, if_pos (hat.syn_iff.mpr unsent)]
          omega
        omega
      unfold TCPConnection.endInputStream
      simp only [hqueue, noFin, Bool.false_eq_true, if_false]
      exact List.cons_ne_nil seg rest

/-- A connection that gives up sends the retransmission as its RST, and the empty segment
it meant for that stays behind. -/
theorem Clear.stranded_empty (h : Clear c) {ms : ℕ} (exceeds : c.sender.ExceedsRetries ms) :
    (c.tick ms).sender.segmentsOut ≠ [] := by
  obtain ⟨seg, hqueue⟩ := exceeds.queued
  have exceeded := (exceedsRetries_iff h.retries).mp exceeds
  have hempty : (c.sender.tick ms).sendEmptySegment.segmentsOut = seg ::
      [{ header := { seqno := wrap (c.sender.tick ms).nextSeqno (c.sender.tick ms).isn } }] := by
    rw [TCPSender.sendEmptySegment, hqueue, h.queue]
    rfl
  unfold TCPConnection.tick
  simp only
  rw [if_pos exceeded]
  unfold sendRstSegmenet
  simp only [hempty, setErrors]
  exact List.cons_ne_nil _ _

/-- **An operation that does not drain strands something.**  So the condition under which
everything is handed over is not only sufficient: where it fails, a segment stays behind in the
queue of the sender. -/
theorem Clear.strands (h : Clear c) {op : Op} (not : ¬ c.Drains op)
    (stepped : c.step op = .ok c') : c'.sender.segmentsOut ≠ [] := by
  cases op with
  | connect => exact absurd trivial not
  | write data => exact absurd trivial not
  | endInputStream =>
      obtain rfl := Except.ok.inj stepped
      exact h.stranded_syn (not_not.mp not)
  | tick ms =>
      obtain rfl := Except.ok.inj stepped
      have exceeds : c.sender.ExceedsRetries ms := not_not.mp not
      exact h.stranded_empty exceeds
  | read len => exact absurd trivial not
  | segment seg => exact absurd trivial not

end Step

/-- **What is handed over.**  In every state that a connection reaches by operations that
drain, the queue of its sender is empty; and the next operation that does not throw leaves
it so, having moved everything the sender generated to the queue of the connection, once
and in order, exactly if it drains too. -/
theorem handover {cfg : TCPConfig} (hcap : cfg.sendCapacity < 2 ^ 64) {c : TCPConnection}
    (run : GuardedRun step (fun c op => c.sender.nextSeqno < 2 ^ 64 ∧ c.Drains op) (new cfg) c) :
    c.sender.segmentsOut = [] ∧
      ∀ op c', c.step op = .ok c' → (HandedOver c op c' ↔ c.Drains op) := by
  have clear : Clear c := run.invariant Clear (clear_new hcap) fun _ _ _ h guard stepped =>
    h.step guard.1 guard.2 stepped
  refine ⟨clear.queue, fun op c' stepped => ⟨fun handed => ?_, fun drains => ?_⟩⟩
  · by_contra not
    exact clear.strands not stepped handed.queue
  · obtain ⟨moved, error, hsender⟩ := clear.drained drains stepped
    exact ⟨by rw [hsender], moved⟩

/-- A connection opens, ends its stream, and retransmits its FIN. -/
def openThenEnd : List Op :=
  [.connect,
    .segment { header := { seqno := ⟨100⟩, syn := true, ack := true, ackno := ⟨1⟩, win := 1000 } },
    .endInputStream]

theorem handover_openThenEnd :
    ∃ c c', execute step (new { fixedIsn := ⟨0⟩ }) openThenEnd = .ok c ∧
      c.step (.tick 1000) = .ok c' ∧ HandedOver c (.tick 1000) c' ∧
      (c.generated (.tick 1000)).segmentsOut ≠ [] := by
  obtain ⟨c, done, admitted, drains, generated⟩ : ∃ c,
      execute step (new { fixedIsn := ⟨0⟩ }) openThenEnd = .ok c ∧
      Admitted step (fun c op => c.sender.nextSeqno < 2 ^ 64 ∧ c.Drains op)
        (new { fixedIsn := ⟨0⟩ }) openThenEnd ∧
      c.Drains (.tick 1000) ∧ (c.generated (.tick 1000)).segmentsOut ≠ [] :=
    EndsIn.exists_ok (by decide +kernel)
  have hcap : 64000 < 2 ^ 64 := by decide
  have handed := (handover hcap (GuardedRun.of_execute admitted done)).2 (.tick 1000) _ rfl
  exact ⟨c, _, done, rfl, handed.mpr drains, generated⟩

/-- A connection that is never answered, for as long as it tries. -/
def unanswered : List Op :=
  .connect :: (List.range 8).map fun k => .tick (1000 * 2 ^ k)

/-- **What is left behind.**  A stream that is ended before the SYN is sent leaves the SYN
on the queue of the sender; and a connection that gives up sends the retransmitted SYN as
its RST and leaves the empty segment. -/
theorem stranded :
    (∃ c, (new { fixedIsn := ⟨0⟩ }).step .endInputStream = .ok c ∧ c.segmentsOut = [] ∧
      ∃ seg ∈ c.sender.segmentsOut, seg.header.syn = true) ∧
    ∃ c c', execute step (new { fixedIsn := ⟨0⟩ }) unanswered = .ok c ∧
      c.sender.segmentsOut = [] ∧ c.step (.tick (1000 * 2 ^ 8)) = .ok c' ∧
      c'.sender.segmentsOut = [{ header := { seqno := ⟨1⟩ } }] ∧
      ∃ seg, c'.segmentsOut = c.segmentsOut ++ [seg] ∧
        seg.header.rst = true ∧ seg.header.syn = true := by
  constructor
  · exact ⟨_, rfl, by decide +kernel, by decide +kernel⟩
  · obtain ⟨c, done, queue, stepped⟩ : ∃ c,
        execute step (new { fixedIsn := ⟨0⟩ }) unanswered = .ok c ∧ c.sender.segmentsOut = [] ∧
        EndsIn (c.step (.tick (1000 * 2 ^ 8))) fun c' =>
          c'.sender.segmentsOut = [{ header := { seqno := ⟨1⟩ } }] ∧
          c'.segmentsOut = c.segmentsOut ++
            [{ header := { seqno := ⟨0⟩, syn := true, rst := true } }] :=
      EndsIn.exists_ok (by decide +kernel)
    obtain ⟨c', stepped, left, hout⟩ := stepped.exists_ok
    exact ⟨c, c', done, queue, stepped, left, _, hout, rfl, rfl⟩

end TCPConnection

end Sponge
