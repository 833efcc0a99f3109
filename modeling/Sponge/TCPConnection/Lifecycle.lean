import Sponge.TCPConnection.Reply
import Sponge.TCPSender.Window

/-!
# The end of a connection

`active()` is computed from counters and flags, and never asks whether a FIN was sent.
That it can be trusted rests on `fill_window` being called after every event that could
leave nothing in flight: once the outbound stream is closed, **something is in flight
until the FIN has been sent** (`TCPSender.Closing`).

* `Tracked` — what holds in every state a connection can reach, whatever its owner does.
* `Closed` — what that makes of a connection that is inactive without error.
* `clean_shutdown` — such a connection has ended both streams, sent its FIN, and seen
  everything it sent acknowledged.

### With and without error

An error takes a connection out of the protocol: what it then has on its queue and in flight
need not be brought to an end.  So `Tracked` keeps unconditionally that the outbound half is
sound, that the two error flags agree and that a stream that has ended had a SYN, and the
rest as implications from *no error*.  A step that ends without error started without one
(`noError_of_step`), which is what makes such implications inductive.

### What the owner may do

`Tracked` supposes nothing about the owner.  `clean_shutdown` excludes writing after the end
of the stream: bytes that are written once the FIN is sent are accepted and never sent, and
what was written and what was acknowledged would no longer agree.

### The clock

The connection's own clock is a 64-bit sum that may wrap around.  `Clocked` runs beside it a
clock that does not, and only one direction is needed: what the connection believes to have
waited, it has waited (`clock_le`).
-/

namespace Sponge

open Layouts Runs

namespace TCPSender

/-! ## Closing -/

/-- A closed stream keeps something in flight until its FIN is sent. -/
def Closing (s : TCPSender) : Prop :=
  s.stream.inputIsEnd = true → s.bytesInFlight ≠ 0 ∨ s.isTransmissionEnded = true

/-- An exhausted sender whose stream is closed has a full window or has sent its FIN. -/
theorem Exhausted.closing {s : TCPSender} (h : s.Exhausted) : s.Closing := by
  intro closed
  rcases h with ended | full | ⟨-, opened⟩
  · exact Or.inr ended
  · -- the window counts as at least one
    have hpos : 0 < s.actualWindowSize := by
      rw [actualWindowSize_eq]
      omega
    exact Or.inl (hpos.trans_le full).ne'
  · have hopen : s.stream.inputIsEnd = false := opened
    rw [closed] at hopen
    cases hopen

/-- A sender that has sent its FIN sends nothing more. -/
theorem fillWindow_of_ended {s : TCPSender} (ended : s.isTransmissionEnded = true) :
    s.fillWindow = s := by
  unfold fillWindow
  split
  · rfl
  · rw [fillLoop, if_pos ended]

/-- With nothing outstanding, time only moves the clocks. -/
theorem tick_of_settled {s : TCPSender} (outstanding : s.outstandingSegments = []) (ms : ℕ) :
    s.tick ms = { s with curTime := add64 s.curTime ms, timer := s.timer.tick ms } := by
  unfold tick
  simp only
  split
  · next hout =>
    rw [show s.outstandingSegments = _ from hout] at outstanding
    cases outstanding
  · rfl

/-- With nothing in flight, nothing is outstanding and all is acknowledged. -/
theorem Inv.settled {W : List UInt8} {s : TCPSender} (inv : Inv W s)
    (idle : s.bytesInFlight = 0) : s.outstandingSegments = [] ∧ s.unaSeqno = s.nextSeqno := by
  obtain ⟨first, placed, flight, una⟩ := inv.inFlight
  have hfirst : first = s.nextSeqno := by omega
  cases hout : s.outstandingSegments with
  | nil =>
      rw [hout] at una
      exact ⟨rfl, una.trans hfirst⟩
  | cons seg rest =>
      rw [hout] at placed
      have := placed.1.occupied
      have := placed.2.le
      omega

end TCPSender

namespace TCPConnection

open TCPSender

/-! ## What holds while there is no error -/

/-- A stream that is filled from is in step with the sender. -/
theorem Outbound.restocked {W : List UInt8} {c : TCPConnection} (h : Outbound W c) {op : Op}
    {stream : ByteStream} (restocked : c.Restocked op stream) :
    Synced (W ++ c.acceptedBy op) { c.sender with stream := stream } := by
  have synced := h.sound.inv.toSynced
  cases op with
  | connect => rw [restocked]; simpa [acceptedBy] using synced
  | write data => rw [restocked]; exact synced.write data
  | endInputStream => rw [restocked]; simpa [acceptedBy] using synced.endInput
  | tick ms => exact restocked.elim
  | read len => exact restocked.elim
  | segment seg => exact restocked.elim

/-- A FIN is on the queue of the connection or on that of its sender. -/
def HasFin (c : TCPConnection) : Prop :=
  ∃ seg ∈ c.segmentsOut ++ c.sender.segmentsOut, seg.header.fin = true

/-- What is on one of the queues is still there when the queue of the sender is emptied,
with its flags. -/
theorem mem_queues_sendAll {c : TCPConnection} {seg : TCPSegment}
    (h : seg ∈ c.segmentsOut ++ c.sender.segmentsOut) :
    ∃ seg' ∈ c.sendAllOutboundingSegments.segmentsOut ++
        c.sendAllOutboundingSegments.sender.segmentsOut,
      seg'.header.syn = seg.header.syn ∧ seg'.header.fin = seg.header.fin := by
  rcases List.mem_append.mp h with hout | hqueued
  · exact ⟨seg, List.mem_append_left _ (List.mem_append_left _ hout), rfl, rfl⟩
  · refine ⟨c.fillIn seg, List.mem_append_left _ (List.mem_append_right _ ?_), ?_⟩
    · exact List.mem_map_of_mem hqueued
    · unfold fillIn
      cases c.receiver.ackno <;> exact ⟨rfl, rfl⟩

/-- A FIN stays on one of the queues when the sender's is emptied. -/
theorem HasFin.sendAll {c : TCPConnection} (h : c.HasFin) :
    c.sendAllOutboundingSegments.HasFin := by
  obtain ⟨seg, hseg, hfin⟩ := h
  obtain ⟨seg', hseg', -, hfin'⟩ := mem_queues_sendAll hseg
  exact ⟨seg', hseg', hfin'.trans hfin⟩

/-- More on the sender's queue hides nothing. -/
theorem mem_queues_mono {c c' : TCPConnection} {seg : TCPSegment}
    (h : seg ∈ c.segmentsOut ++ c.sender.segmentsOut) (out : c'.segmentsOut = c.segmentsOut)
    {new : List TCPSegment} (queued : c'.sender.segmentsOut = c.sender.segmentsOut ++ new) :
    seg ∈ c'.segmentsOut ++ c'.sender.segmentsOut := by
  rw [out, queued, ← List.append_assoc]
  exact List.mem_append_left _ h

theorem HasFin.mono {c c' : TCPConnection} (h : c.HasFin) (out : c'.segmentsOut = c.segmentsOut)
    {new : List TCPSegment} (queued : c'.sender.segmentsOut = c.sender.segmentsOut ++ new) :
    c'.HasFin := by
  obtain ⟨seg, hseg, hfin⟩ := h
  exact ⟨seg, mem_queues_mono hseg out queued, hfin⟩

/-- What holds between two operations of a connection without error.  The end of the outbound
stream is not forgotten, a FIN that was sent is on one of the queues, and the retransmissions are
within the limit. -/
structure Live (c : TCPConnection) : Prop where
  closing : c.sender.Closing
  finSent : c.sender.isTransmissionEnded = true → c.HasFin
  /-- The connection gives up before there are more. -/
  retries : c.sender.consecutiveRetransTimes ≤ TCPConfig.maxRetxAttempts

/-- A new connection has an open stream. -/
theorem live_new (cfg : TCPConfig) : Live (new cfg) where
  closing := by
    intro ended
    cases ended
  finSent := by
    intro ended
    cases ended
  retries := Nat.zero_le _

theorem Live.sendAll {c : TCPConnection} (h : Live c) : Live c.sendAllOutboundingSegments :=
  ⟨h.closing, fun ended => (h.finSent ended).sendAll, h.retries⟩

theorem Live.sendEmpty {c : TCPConnection} (h : Live c) :
    Live { c with sender := c.sender.sendEmptySegment } :=
  ⟨h.closing, fun ended => (h.finSent ended).mono rfl rfl, h.retries⟩

/-- Filling the window, after the sender has moved to `s`. -/
theorem Live.fill {W : List UInt8} {c c' : TCPConnection} {s : TCPSender} (h : Live c)
    (synced : Synced W s) (alone : s.SynAlone) (queued : s.segmentsOut = c.sender.segmentsOut)
    (ended : s.isTransmissionEnded = c.sender.isTransmissionEnded)
    (retries : s.consecutiveRetransTimes ≤ c.sender.consecutiveRetransTimes)
    (hsender : c'.sender = s.fillWindow) (out : c'.segmentsOut = c.segmentsOut) : Live c' := by
  obtain ⟨new, filled, -⟩ := synced.fillWindow alone
  have hqueue : c'.sender.segmentsOut = c.sender.segmentsOut ++ new := by
    rw [hsender, filled.segmentsOut, queued]
  refine ⟨hsender ▸ (synced.exhausts alone).closing, fun ended' => ?_, ?_⟩
  · rw [hsender, filled.ended, Bool.or_eq_true, ended] at ended'
    rcases ended' with before | now
    · exact (h.finSent before).mono out hqueue
    · obtain ⟨seg, hseg, hfin⟩ := List.any_eq_true.mp now
      refine ⟨seg, List.mem_append_right _ ?_, hfin⟩
      rw [hqueue]
      exact List.mem_append_right _ hseg
  · rw [hsender, filled.frame]
    exact retries.trans h.retries

/-- An acknowledgment never raises the count of retransmissions. -/
theorem acknowledge_retries (s : TCPSender) (seg : TCPSegment) :
    (acknowledge s seg).consecutiveRetransTimes ≤ s.consecutiveRetransTimes := by
  unfold acknowledge ackReceived
  simp only
  split
  · split
    · exact le_rfl
    · exact Nat.zero_le _
  · exact le_rfl

/-- The sender after the acknowledgment of a segment is in step with its stream. -/
theorem Outbound.synced_acknowledge {W : List UInt8} {c : TCPConnection} (h : Outbound W c)
    (seg : TCPSegment) : Synced W (acknowledge c.sender seg) := by
  rw [(acknowledge_effect c.sender seg).2]
  exact h.sound.inv.toSynced.congr rfl rfl rfl

/-- Answering a segment fills the window. -/
theorem Live.respond {W : List UInt8} {c : TCPConnection} (h : Live c) (outbound : Outbound W c)
    (seg : TCPSegment) : Live (c.respond seg) := by
  have frame := (acknowledge_effect c.sender seg).2
  have filled : Live (c.refill seg) := by
    refine h.fill (outbound.synced_acknowledge seg) (outbound.synAlone_acknowledge seg) ?_ ?_
      (acknowledge_retries c.sender seg) rfl rfl
    · rw [frame]
    · rw [frame]
  exact respond_rule filled (fun _ queued => queued.sendEmpty) fun _ sent => sent.sendAll

/-- **A step without error keeps the connection live.** -/
theorem Live.step {W : List UInt8} {c c' : TCPConnection} {op : Op} (h : Live c)
    (outbound : Outbound W c) (outcome : Outcome c op c') : Live c' := by
  cases outcome with
  | filled restocked =>
      exact h.fill (outbound.restocked restocked) (outbound.synAlone _) rfl rfl le_rfl rfl rfl
  | flushed restocked =>
      exact Live.sendAll (h.fill (outbound.restocked restocked) (outbound.synAlone _) rfl rfl
        le_rfl rfl rfl)
  | ticked ms retries =>
      obtain ⟨again, hqueue, -, frame⟩ := c.sender.tick_effect ms
      refine Live.sendAll ⟨?_, fun ended => ?_, retries⟩
      · show (c.sender.tick ms).Closing
        rw [frame]
        exact h.closing
      · have ended' : (c.sender.tick ms).isTransmissionEnded = true := ended
        rw [frame] at ended'
        exact (h.finSent ended').mono rfl hqueue
  | read len => exact ⟨h.closing, h.finSent, h.retries⟩
  | keptAlive alive =>
      have arrived : Live { c with timeSinceLastSegReceived := 0 } :=
        ⟨h.closing, h.finSent, h.retries⟩
      exact arrived.sendEmpty.sendAll
  | dropped noSyn listen => exact ⟨h.closing, h.finSent, h.retries⟩
  | @answered seg receiver noRst notAlive received =>
      have taken : Live { c with timeSinceLastSegReceived := 0, receiver := receiver } :=
        ⟨h.closing, h.finSent, h.retries⟩
      exact taken.respond ⟨outbound.sound, outbound.unsent⟩ seg

/-! ## The sender's queue -/

/-- What waits on the queue of the sender is in flight. -/
def QueuedInFlight (s : TCPSender) : Prop := s.segmentsOut ≠ [] → s.bytesInFlight ≠ 0

theorem queuedInFlight_of_empty {s : TCPSender} (empty : s.segmentsOut = []) :
    QueuedInFlight s :=
  fun queued => absurd empty queued

/-- Filling the window queues nothing without counting it. -/
theorem QueuedInFlight.fillWindow {W : List UInt8} {s : TCPSender} (h : QueuedInFlight s)
    (synced : Synced W s) (alone : s.SynAlone) : QueuedInFlight s.fillWindow := by
  obtain ⟨new, filled, -⟩ := synced.fillWindow alone
  intro queued idle
  have hflight := filled.flight
  have placed := filled.placed
  have hle := placed.le
  cases new with
  | nil =>
      rw [filled.segmentsOut, List.append_nil] at queued
      exact h queued (by omega)
  | cons seg rest =>
      have := placed.1.occupied
      have := placed.2.le
      omega

/-- Each outcome empties the queue or has counted what is on it. -/
theorem QueuedInFlight.step {W : List UInt8} {c c' : TCPConnection} {op : Op}
    (h : QueuedInFlight c.sender) (outbound : Outbound W c) (outcome : Outcome c op c') :
    QueuedInFlight c'.sender := by
  cases outcome with
  | @filled op stream restocked =>
      have queued : QueuedInFlight { c.sender with stream := stream } := h
      exact queued.fillWindow (outbound.restocked restocked) (outbound.synAlone _)
  | flushed restocked => exact queuedInFlight_of_empty rfl
  | ticked ms retries => exact queuedInFlight_of_empty rfl
  | read len => exact h
  | keptAlive alive => exact queuedInFlight_of_empty rfl
  | dropped noSyn listen => exact h
  | answered noRst notAlive received =>
      rw [respond_sender]
      exact queuedInFlight_of_empty rfl

/-! ## Every state a connection can reach -/

/-- A stream only ends once its SYN has arrived. -/
def Heard (r : TCPReceiver) : Prop := r.streamOut.inputEnded = true → r.isn ≠ none

/-- The receiver pushes nothing before it has a SYN. -/
theorem Heard.segmentReceived {r r' : TCPReceiver} {seg : TCPSegment} (h : Heard r)
    (received : r.segmentReceived seg = .ok r') : Heard r' := by
  intro ended
  obtain ⟨hisn, -, ⟨hsame, -⟩ | ⟨isn, hisn', -⟩⟩ := TCPReceiver.segmentReceived_cases received
  · have before : r.streamOut.inputEnded = true := by
      rw [TCPReceiver.streamOut, ← hsame]
      exact ended
    rw [hisn, TCPReceiver.isnAfter]
    split
    · exact Option.some_ne_none _
    · exact h before
  · rw [hisn']
    exact Option.some_ne_none _

/-- No operation ends a stream that has not begun. -/
theorem Heard.step {c c' : TCPConnection} {op : Op} (h : Heard c.receiver)
    (stepped : c.step op = .ok c') : Heard c'.receiver := by
  rcases step_receiver stepped with ⟨-, hsame | herror⟩ | ⟨len, -, hread⟩ | ⟨seg, -, -, received⟩
  · exact hsame ▸ h
  · rw [herror]
    exact h
  · rw [hread]
    exact h
  · exact h.segmentReceived received

/-- What holds in every state a connection can reach, whatever its owner does.  The last two are
said only without an error: a connection that has given up is past the limit of its
retransmissions. -/
structure Tracked (c : TCPConnection) : Prop where
  outbound : ∃ W, Outbound W c
  errors : c.sender.stream.error = c.receiver.streamOut.error
  heard : Heard c.receiver
  live : c.sender.stream.error = false → Live c
  queued : c.sender.stream.error = false → QueuedInFlight c.sender

/-- One stream has an error only with the other. -/
theorem Tracked.noErrors {c : TCPConnection} (h : Tracked c)
    (noError : c.sender.stream.error = false) :
    c.sender.stream.error = false ∧ c.receiver.streamOut.error = false :=
  ⟨noError, h.errors ▸ noError⟩

/-- A new connection is tracked. -/
theorem tracked_new {cfg : TCPConfig} (hcap : cfg.sendCapacity < 2 ^ 64) : Tracked (new cfg) where
  outbound := ⟨[], outbound_new hcap⟩
  errors := rfl
  heard := by
    intro ended
    cases ended
  live := fun _ => live_new cfg
  queued := fun _ => queuedInFlight_of_empty rfl

/-- Every operation keeps the connection tracked. -/
theorem Tracked.step {c c' : TCPConnection} {op : Op} (h : Tracked c)
    (hnext : c.sender.nextSeqno < 2 ^ 64) (stepped : c.step op = .ok c') : Tracked c' := by
  obtain ⟨W, outbound⟩ := h.outbound
  refine ⟨⟨_, (outbound.step hnext stepped).outbound⟩, ?_, h.heard.step stepped,
    fun noError => ?_, fun noError => ?_⟩
  · rcases step_errors stepped with ⟨hsender, hreceiver⟩ | ⟨hsender, hreceiver⟩
    · rw [hsender, hreceiver, h.errors]
    · rw [hsender, hreceiver]
  · exact (h.live (noError_of_step stepped noError)).step outbound
      (outcome_of_step stepped noError)
  · exact (h.queued (noError_of_step stepped noError)).step outbound
      (outcome_of_step stepped noError)

/-! ## Inactive without error -/

/-- What `active()` says of a connection without error. -/
theorem inactive_iff {c : TCPConnection}
    (noError : c.sender.stream.error = false ∧ c.receiver.streamOut.error = false) :
    c.active = false ↔
      (c.lingerAfterStreamsFinish = false ∨
        10 * c.cfg.rtTimeout.toNat ≤ c.timeSinceLastSegReceived) ∧
      c.sender.bytesInFlight = 0 ∧ c.sender.stream.inputEnded = true ∧
      c.receiver.streamOut.inputEnded = true := by
  obtain ⟨hsender, hreceiver⟩ := noError
  unfold active
  rw [hsender, hreceiver]
  cases c.lingerAfterStreamsFinish <;> by_cases idle : c.sender.bytesInFlight = 0 <;>
    by_cases waited : 10 * c.cfg.rtTimeout.toNat ≤ c.timeSinceLastSegReceived <;>
    simp [idle, waited]

/-- A connection with both streams ended and everything acknowledged, without error.  It may still
linger; `Closed` is one that has done so or need not. -/
structure Finished (c : TCPConnection) : Prop where
  noError : c.sender.stream.error = false ∧ c.receiver.streamOut.error = false
  idle : c.sender.bytesInFlight = 0
  outEnded : c.sender.stream.inputEnded = true
  inEnded : c.receiver.streamOut.inputEnded = true
  finSent : c.sender.isTransmissionEnded = true
  queue : c.sender.segmentsOut = []
  outstanding : c.sender.outstandingSegments = []
  acked : c.sender.unaSeqno = c.sender.nextSeqno
  retries : c.sender.consecutiveRetransTimes ≤ TCPConfig.maxRetxAttempts
  heard : c.receiver.isn ≠ none

/-- A connection that is inactive without error: it is finished, its FIN has left, and it has
lingered or need not. -/
structure Closed (c : TCPConnection) : Prop extends Finished c where
  finOut : ∃ seg ∈ c.segmentsOut, seg.header.fin = true
  waited : c.lingerAfterStreamsFinish = false ∨
    10 * c.cfg.rtTimeout.toNat ≤ c.timeSinceLastSegReceived

/-- Inactive without error means closed: `active()` asked for nothing in flight and both ends, and
`Closing` adds the FIN. -/
theorem Tracked.closed {c : TCPConnection} (h : Tracked c) (inactive : c.active = false)
    (noError : c.sender.stream.error = false) : Closed c := by
  obtain ⟨W, outbound⟩ := h.outbound
  have noErrors := h.noErrors noError
  obtain ⟨waited, idle, outEnded, inEnded⟩ := (inactive_iff noErrors).mp inactive
  obtain ⟨outstanding, acked⟩ := outbound.sound.inv.settled idle
  have live := h.live noError
  -- nothing is in flight, so the FIN is sent and has left
  have finSent : c.sender.isTransmissionEnded = true :=
    (live.closing outEnded).resolve_left (not_not_intro idle)
  have queue : c.sender.segmentsOut = [] := by
    by_contra queued
    exact h.queued noError queued idle
  obtain ⟨seg, hseg, hfin⟩ := live.finSent finSent
  rw [queue, List.append_nil] at hseg
  exact ⟨⟨noErrors, idle, outEnded, inEnded, finSent, queue, outstanding, acked, live.retries,
    h.heard inEnded⟩, ⟨seg, hseg, hfin⟩, waited⟩

/-! ## Clean shutdown -/

/-- Once the FIN is sent, the stream holds nothing more. -/
def Drained (s : TCPSender) : Prop := s.isTransmissionEnded = true → s.stream.str = []

/-- The FIN is sent with the last byte or after it. -/
theorem Drained.fillWindow {W : List UInt8} {s : TCPSender} (h : Drained s) (synced : Synced W s)
    (alone : s.SynAlone) : Drained s.fillWindow := by
  obtain ⟨new, filled, -⟩ := synced.fillWindow alone
  intro ended
  rw [filled.ended, Bool.or_eq_true] at ended
  rcases ended with before | now
  · have hstr := filled.consumed.str_eq
    rw [h before, eq_comm, List.append_eq_nil_iff] at hstr
    exact hstr.2
  · obtain ⟨seg, hseg, hfin⟩ := List.any_eq_true.mp now
    exact (filled.finished ⟨seg, hseg, hfin⟩).2

/-- Nothing is written once the FIN is sent. -/
def WritesBeforeFin (c : TCPConnection) : Op → Prop
  | .write data => c.sender.isTransmissionEnded = false ∨ data = []
  | _ => True

theorem Drained.restocked {c : TCPConnection} (h : Drained c.sender) {op : Op}
    {stream : ByteStream} (before : c.WritesBeforeFin op) (restocked : c.Restocked op stream) :
    Drained { c.sender with stream := stream } := by
  intro ended
  have hstr := h ended
  cases op with
  | connect => rw [restocked]; exact hstr
  | write data =>
      rcases before with running | rfl
      · rw [show c.sender.isTransmissionEnded = true from ended] at running
        cases running
      · rw [restocked]
        simpa using hstr
  | endInputStream => rw [restocked]; exact hstr
  | tick ms => exact restocked.elim
  | read len => exact restocked.elim
  | segment seg => exact restocked.elim

/-- Nothing is written once the FIN is sent, so the stream stays empty. -/
theorem Drained.step {W : List UInt8} {c c' : TCPConnection} {op : Op} (h : Drained c.sender)
    (outbound : Outbound W c) (before : c.WritesBeforeFin op) (outcome : Outcome c op c') :
    Drained c'.sender := by
  cases outcome with
  | filled restocked =>
      exact (h.restocked before restocked).fillWindow (outbound.restocked restocked)
        (outbound.synAlone _)
  | flushed restocked =>
      exact (h.restocked before restocked).fillWindow (outbound.restocked restocked)
        (outbound.synAlone _)
  | ticked ms retries =>
      obtain ⟨-, -, -, frame⟩ := c.sender.tick_effect ms
      show Drained (c.sender.tick ms)
      rw [frame]
      exact h
  | read len => exact h
  | keptAlive alive => exact h
  | dropped noSyn listen => exact h
  | @answered seg receiver noRst notAlive received =>
      have acked : Drained (acknowledge c.sender seg) := by
        rw [(acknowledge_effect c.sender seg).2]
        exact h
      rw [respond_sender]
      exact acked.fillWindow (outbound.synced_acknowledge seg) (outbound.synAlone_acknowledge seg)

/-- A connection and the time since a segment last reached it.  The connection has a counter for
this, which wraps around; `elapsed` does not, and is what the waiting time is stated with. -/
structure Clocked where
  c : TCPConnection
  elapsed : ℕ := 0
  deriving Repr, DecidableEq

/-- The time since the last segment, after an operation. -/
def elapsedAfter (elapsed : ℕ) : Op → ℕ
  | .tick ms => elapsed + ms
  | .segment _ => 0
  | .connect | .write _ | .endInputStream | .read _ => elapsed

/-- One call, on both clocks. -/
def Clocked.step (t : Clocked) (op : Op) : Except Fault Clocked :=
  match t.c.step op with
  | .ok c => .ok { c := c, elapsed := elapsedAfter t.elapsed op }
  | .error fault => .error fault

theorem Clocked.step_cases {t t' : Clocked} {op : Op} (h : t.step op = .ok t') :
    t.c.step op = .ok t'.c ∧ t'.elapsed = elapsedAfter t.elapsed op := by
  unfold Clocked.step at h
  cases hc : t.c.step op with
  | error fault => simp [hc] at h
  | ok c =>
      simp only [hc, Except.ok.injEq] at h
      subst h
      exact ⟨rfl, rfl⟩

/-- The clock of the connection wraps around, so it can only run late. -/
theorem clock_le {c c' : TCPConnection} {op : Op} {elapsed : ℕ} (outcome : Outcome c op c')
    (h : c.timeSinceLastSegReceived ≤ elapsed) :
    c'.timeSinceLastSegReceived ≤ elapsedAfter elapsed op := by
  cases outcome with
  | @filled op stream restocked =>
      cases op <;> first | exact h | exact restocked.elim
  | @flushed op stream restocked =>
      cases op <;> first | exact h | exact restocked.elim
  | ticked ms retries =>
      show add64 c.timeSinceLastSegReceived ms ≤ elapsed + ms
      exact (Nat.mod_le _ _).trans (Nat.add_le_add_right h ms)
  | read len => exact h
  | keptAlive alive => exact Nat.zero_le _
  | dropped noSyn listen => exact Nat.zero_le _
  | @answered seg receiver noRst notAlive received =>
      have zero : (TCPConnection.respond
          { c with timeSinceLastSegReceived := 0, receiver := receiver }
          seg).timeSinceLastSegReceived = 0 :=
        respond_rule (P := fun c' => c'.timeSinceLastSegReceived = 0) rfl (fun _ h => h)
          fun _ h => h
      exact zero.le.trans (Nat.zero_le _)

/-- A stream that is still open has no FIN on the way. -/
theorem NotAfterEnd.writesBeforeFin {W : List UInt8} {c : TCPConnection} {op : Op}
    (h : c.NotAfterEnd op) (outbound : Outbound W c) : c.WritesBeforeFin op := by
  cases op with
  | write data =>
      refine Or.inl (Bool.eq_false_iff.mpr fun ended => ?_)
      have closed := outbound.sound.inv.closed ended
      rw [show c.sender.stream.inputIsEnd = false from h] at closed
      cases closed
  | connect => trivial
  | endInputStream => trivial
  | tick ms => trivial
  | read len => trivial
  | segment seg => trivial

/-- What holds along a run in which nothing is written after the end. -/
structure Closable (t : Clocked) : Prop where
  tracked : Tracked t.c
  drained : t.c.sender.stream.error = false → Drained t.c.sender
  clock : t.c.sender.stream.error = false → t.c.timeSinceLastSegReceived ≤ t.elapsed

theorem closable_new {cfg : TCPConfig} (hcap : cfg.sendCapacity < 2 ^ 64) :
    Closable { c := new cfg } where
  tracked := tracked_new hcap
  drained := by
    intro _ ended
    cases ended
  clock := fun _ => le_rfl

/-- One call of an owner that writes nothing after the end. -/
theorem Closable.step {t t' : Clocked} {op : Op} (h : Closable t)
    (hnext : t.c.sender.nextSeqno < 2 ^ 64) (notAfter : t.c.NotAfterEnd op)
    (stepped : t.step op = .ok t') : Closable t' := by
  obtain ⟨hc, helapsed⟩ := Clocked.step_cases stepped
  obtain ⟨W, outbound⟩ := h.tracked.outbound
  refine ⟨h.tracked.step hnext hc, fun noError => ?_, fun noError => ?_⟩
  · exact (h.drained (noError_of_step hc noError)).step outbound
      (notAfter.writesBeforeFin outbound) (outcome_of_step hc noError)
  · rw [helapsed]
    exact clock_le (outcome_of_step hc noError) (h.clock (noError_of_step hc noError))

/-- **Soundness of clean shutdown.**  In every run in which `write` is not called after
`end_input_stream`, a connection that is inactive without error has seen both streams
end, has sent its FIN, and everything it ever sent has been acknowledged; and it need
not linger, or has heard nothing for ten times the retransmission timeout. -/
theorem clean_shutdown {cfg : TCPConfig} (hcap : cfg.sendCapacity < 2 ^ 64) {t : Clocked}
    (run : GuardedRun Clocked.step
      (fun t op => t.c.sender.nextSeqno < 2 ^ 64 ∧ t.c.NotAfterEnd op) { c := new cfg } t)
    (inactive : t.c.active = false)
    (noError : t.c.sender.stream.error = false ∧ t.c.receiver.streamOut.error = false) :
    t.c.receiver.streamOut.inputEnded = true ∧ t.c.sender.stream.inputEnded = true ∧
      (∃ seg ∈ t.c.segmentsOut, seg.header.fin = true) ∧
      t.c.sender.bytesInFlight = 0 ∧ t.c.sender.unaSeqno = t.c.sender.nextSeqno ∧
      t.c.sender.nextSeqno = t.c.sender.stream.bytesWritten + 2 ∧
      (t.c.lingerAfterStreamsFinish = false ∨ 10 * t.c.cfg.rtTimeout.toNat ≤ t.elapsed) := by
  have closable : Closable t :=
    run.invariant Closable (closable_new hcap) fun _ _ _ h guard stepped =>
      h.step guard.1 guard.2 stepped
  have closed := closable.tracked.closed inactive noError.1
  refine ⟨closed.inEnded, closed.outEnded, closed.finOut, closed.idle, closed.acked, ?_,
    closed.waited.imp_right fun h => h.trans (closable.clock noError.1)⟩
  obtain ⟨W, outbound⟩ := closable.tracked.outbound
  have sent : t.c.sender.nextSeqno ≠ 0 := by
    intro unsent
    have running := (outbound.sound.inv.positioned.unsent unsent).2
    rw [closed.finSent] at running
    cases running
  have hnext := outbound.sound.inv.positioned.sent sent
  have hwritten := outbound.sound.inv.buffers.inv.balance
  rw [closable.drained noError.1 closed.finSent, List.length_nil] at hwritten
  rw [if_pos closed.finSent] at hnext
  omega

/-- The peer closes first, so the connection need not linger. -/
def passiveClose : List Op :=
  [.connect,
    .segment { header := { seqno := ⟨100⟩, syn := true, ack := true, ackno := ⟨1⟩, win := 1000 } },
    .segment { header := { seqno := ⟨101⟩, fin := true, ack := true, ackno := ⟨1⟩, win := 1000 } },
    .endInputStream,
    .segment { header := { seqno := ⟨102⟩, ack := true, ackno := ⟨2⟩, win := 1000 } }]

theorem clean_shutdown_passiveClose :
    ∃ t, execute Clocked.step { c := new { fixedIsn := ⟨0⟩ } } passiveClose = .ok t ∧
      t.c.active = false ∧ (∃ seg ∈ t.c.segmentsOut, seg.header.fin = true) ∧
      t.c.sender.unaSeqno = t.c.sender.nextSeqno := by
  obtain ⟨t, done, admitted, inactive, noError⟩ : ∃ t,
      execute Clocked.step { c := new { fixedIsn := ⟨0⟩ } } passiveClose = .ok t ∧
      Admitted Clocked.step
        (fun t op => t.c.sender.nextSeqno < 2 ^ 64 ∧ t.c.NotAfterEnd op)
        { c := new { fixedIsn := ⟨0⟩ } } passiveClose ∧
      t.c.active = false ∧
      t.c.sender.stream.error = false ∧ t.c.receiver.streamOut.error = false :=
    EndsIn.exists_ok (by decide +kernel)
  have hcap : 64000 < 2 ^ 64 := by decide
  obtain ⟨-, -, hfin, -, huna, -⟩ :=
    clean_shutdown hcap (GuardedRun.of_execute admitted done) inactive noError
  exact ⟨t, done, inactive, hfin, huna⟩

end TCPConnection

end Sponge
