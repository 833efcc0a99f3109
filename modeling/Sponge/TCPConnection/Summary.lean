import Sponge.TCPConnection.Machine

/-!
# The summary of the sender

`state_summary` of a sender looks at three counters and at the byte stream, never at what
was sent.  Here it is compared with the history: the segments ever queued, which are those
on the queue of the connection and those still on that of its sender.

* `sender_summary` — in every run in which `write` is not called after
  `end_input_stream`, the summary says what was sent and what of it is acknowledged.
* `finSent_before_synAcked` — the FIN can be sent while the SYN is unacknowledged, since
  even an unacceptable acknowledgment opens the window.  The summary is then SYN_SENT, so
  FIN_SENT also says that the SYN is acknowledged.

### Counters and queues

The summary is computed from counters; what was sent is a list.  The link is a handful of
implications that every operation keeps: a sequence number was used only if a SYN was
queued, the transmission has ended only if a FIN was, and the SYN has a segment to itself,
so that the count in flight tells whether it is acknowledged (`Legible`).  In the other
direction it is the segments that tell: everything ever queued is genuine, so a SYN among it
used number zero, and a FIN among it ended the transmission (`Chronicle`).
-/

namespace Sponge

open Runs

namespace TCPConnection

open TCPSender

/-- A SYN is on the queue of the connection or on that of its sender. -/
def HasSyn (c : TCPConnection) : Prop :=
  ∃ seg ∈ c.segmentsOut ++ c.sender.segmentsOut, seg.header.syn = true

instance (c : TCPConnection) : Decidable c.HasSyn :=
  inferInstanceAs (Decidable (∃ seg ∈ _, _ = true))

instance (c : TCPConnection) : Decidable c.HasFin :=
  inferInstanceAs (Decidable (∃ seg ∈ _, _ = true))

theorem HasSyn.sendAll {c : TCPConnection} (h : c.HasSyn) :
    c.sendAllOutboundingSegments.HasSyn := by
  obtain ⟨seg, hseg, hsyn⟩ := h
  obtain ⟨seg', hseg', hsyn', -⟩ := mem_queues_sendAll hseg
  exact ⟨seg', hseg', hsyn'.trans hsyn⟩

theorem HasSyn.mono {c c' : TCPConnection} (h : c.HasSyn) (out : c'.segmentsOut = c.segmentsOut)
    {new : List TCPSegment} (queued : c'.sender.segmentsOut = c.sender.segmentsOut ++ new) :
    c'.HasSyn := by
  obtain ⟨seg, hseg, hsyn⟩ := h
  exact ⟨seg, mem_queues_mono hseg out queued, hsyn⟩

/-! ## What the counters tell of the queues -/

/-- What makes the counters of a sender tell what was sent.  The summary is computed from
counters, and what it is to say is about segments; these are the facts that translate one into the
other. -/
structure Legible (c : TCPConnection) : Prop where
  apart : SynApart c.sender
  opened : c.sender.nextSeqno = 0 → c.sender.stream.inputIsEnd = false
  synSent : c.sender.nextSeqno ≠ 0 → c.HasSyn

/-- Nothing was sent. -/
theorem legible_new (cfg : TCPConfig) : Legible (new cfg) where
  apart := by
    intro seg hseg
    cases hseg
  opened := fun _ => rfl
  synSent := fun sent => absurd rfl sent

theorem Legible.sendAll {c : TCPConnection} (h : Legible c) :
    Legible c.sendAllOutboundingSegments :=
  ⟨h.apart, h.opened, fun sent => (h.synSent sent).sendAll⟩

theorem Legible.sendEmpty {c : TCPConnection} (h : Legible c) :
    Legible { c with sender := c.sender.sendEmptySegment } :=
  ⟨h.apart, h.opened, fun sent => (h.synSent sent).mono rfl rfl⟩

/-- Filling the window, after the sender has moved to `s`: what is sent first is a SYN. -/
theorem Legible.fill {W : List UInt8} {c c' : TCPConnection} {s : TCPSender} (h : Legible c)
    (synced : Synced W s) (alone : s.SynAlone) (queued : s.segmentsOut = c.sender.segmentsOut)
    (next : s.nextSeqno = c.sender.nextSeqno) (hsender : c'.sender = s.fillWindow)
    (out : c'.segmentsOut = c.segmentsOut) (apart : SynApart s.fillWindow)
    (sent : s.fillWindow.nextSeqno ≠ 0) : Legible c' := by
  obtain ⟨new, filled, -⟩ := synced.fillWindow alone
  have hqueue : c'.sender.segmentsOut = c.sender.segmentsOut ++ new := by
    rw [hsender, filled.segmentsOut, queued]
  refine ⟨hsender ▸ apart, fun unsent => absurd (hsender ▸ unsent) sent, fun _ => ?_⟩
  by_cases before : c.sender.nextSeqno = 0
  · have placed := filled.placed
    rw [next, before] at placed
    cases new with
    | nil => exact absurd placed.symm sent
    | cons seg rest =>
        refine ⟨seg, List.mem_append_right _ ?_, placed.1.syn_iff.mpr rfl⟩
        rw [hqueue]
        exact List.mem_append_right _ List.mem_cons_self
  · exact (h.synSent before).mono out hqueue

/-- The owner fills the window. -/
theorem Legible.restocked {W : List UInt8} {c : TCPConnection} (h : Legible c)
    (outbound : Outbound W c) {op : Op} {stream : ByteStream} (restocked : c.Restocked op stream) :
    Legible { c with sender := { c.sender with stream := stream }.fillWindow } := by
  have synced := outbound.restocked restocked
  exact h.fill synced (outbound.synAlone _) rfl rfl rfl rfl
    (outbound.synApart_fill synced h.apart) (outbound.sent_fill synced)

/-- Answering a segment fills the window. -/
theorem Legible.respond {W : List UInt8} {c : TCPConnection} (h : Legible c)
    (outbound : Outbound W c) (hnext : c.sender.nextSeqno < 2 ^ 64) (seg : TCPSegment) :
    Legible (c.respond seg) := by
  have frame := (acknowledge_effect c.sender seg).2
  have alone := outbound.synAlone_acknowledge seg
  have sent := ((outbound.acknowledged hnext seg).1.fillWindow alone).2.2.1
  have filled : Legible (c.refill seg) := by
    refine h.fill (outbound.synced_acknowledge seg) alone ?_ ?_ rfl rfl
      (outbound.synApart_acknowledge h.apart h.opened seg) sent
    · rw [frame]
    · rw [frame]
  exact respond_rule filled (fun _ queued => queued.sendEmpty) fun _ sent => sent.sendAll

/-- **A step without error keeps the counters legible.** -/
theorem Legible.step {W : List UInt8} {c c' : TCPConnection} {op : Op} (h : Legible c)
    (outbound : Outbound W c) (hnext : c.sender.nextSeqno < 2 ^ 64) (outcome : Outcome c op c') :
    Legible c' := by
  cases outcome with
  | filled restocked => exact h.restocked outbound restocked
  | flushed restocked => exact (h.restocked outbound restocked).sendAll
  | ticked ms retries =>
      obtain ⟨again, hqueue, -, frame⟩ := c.sender.tick_effect ms
      refine Legible.sendAll ⟨?_, ?_, fun sent => ?_⟩
      · show SynApart (c.sender.tick ms)
        rw [frame]
        exact h.apart
      · show (c.sender.tick ms).nextSeqno = 0 → (c.sender.tick ms).stream.inputIsEnd = false
        rw [frame]
        exact h.opened
      · have sent' : (c.sender.tick ms).nextSeqno ≠ 0 := sent
        rw [frame] at sent'
        exact (h.synSent sent').mono rfl hqueue
  | read len => exact ⟨h.apart, h.opened, h.synSent⟩
  | keptAlive alive =>
      have arrived : Legible { c with timeSinceLastSegReceived := 0 } :=
        ⟨h.apart, h.opened, h.synSent⟩
      exact arrived.sendEmpty.sendAll
  | dropped noSyn listen => exact ⟨h.apart, h.opened, h.synSent⟩
  | @answered seg receiver noRst notAlive received =>
      have taken : Legible { c with timeSinceLastSegReceived := 0, receiver := receiver } :=
        ⟨h.apart, h.opened, h.synSent⟩
      exact taken.respond ⟨outbound.sound, outbound.unsent⟩ hnext seg

/-! ## The history -/

/-- What holds along a run in which nothing is written after the end: the connection can be
followed, all that it has sent is known, and its counters can be read as a record of it. -/
structure Chronicle (c : TCPConnection) : Prop where
  tracked : Tracked c
  /-- Everything ever sent is genuine. -/
  genuine : ∃ W, Outbound W c ∧
    ∀ seg ∈ c.segmentsOut ++ c.sender.segmentsOut, Genuine W c.sender seg
  drained : c.sender.stream.error = false → Drained c.sender
  legible : c.sender.stream.error = false → Legible c

/-- An empty history. -/
theorem chronicle_new {cfg : TCPConfig} (hcap : cfg.sendCapacity < 2 ^ 64) :
    Chronicle (new cfg) where
  tracked := tracked_new hcap
  genuine := ⟨[], outbound_new hcap, by simp [new, TCPSender.new]⟩
  drained := by
    intro _ ended
    cases ended
  legible := fun _ => legible_new cfg

/-- One call of an owner that writes nothing after the end. -/
theorem Chronicle.step {c c' : TCPConnection} {op : Op} (h : Chronicle c)
    (hnext : c.sender.nextSeqno < 2 ^ 64) (notAfter : c.NotAfterEnd op)
    (stepped : c.step op = .ok c') : Chronicle c' := by
  obtain ⟨W, outbound, genuine⟩ := h.genuine
  have effect := outbound.step hnext stepped
  refine ⟨h.tracked.step hnext stepped, ⟨_, effect.outbound, fun seg hseg => ?_⟩,
    fun noError => ?_, fun noError => ?_⟩
  · obtain ⟨extra, hout, hextra⟩ := effect.emitted
    rw [hout] at hseg
    rcases List.mem_append.mp hseg with hout | hqueued
    · rcases List.mem_append.mp hout with hold | hnew
      · exact ((genuine seg (List.mem_append_left _ hold)).later effect.advanced).grow _
      · exact (hextra seg hnew).1
    · exact (effect.outbound.sound.queued seg hqueued).1
  · exact (h.drained (noError_of_step stepped noError)).step outbound
      (notAfter.writesBeforeFin outbound) (outcome_of_step stepped noError)
  · exact (h.legible (noError_of_step stepped noError)).step outbound hnext
      (outcome_of_step stepped noError)

/-- A SYN was sent exactly if a sequence number was used. -/
theorem Chronicle.hasSyn_iff {c : TCPConnection} (h : Chronicle c)
    (noError : c.sender.stream.error = false) : c.HasSyn ↔ c.sender.nextSeqno ≠ 0 := by
  refine ⟨fun ⟨seg, hseg, hsyn⟩ => ?_, (h.legible noError).synSent⟩
  obtain ⟨W, -, genuine⟩ := h.genuine
  have hlen : 0 < seg.lengthInSequenceSpace := by
    rw [TCPSegment.lengthInSequenceSpace, if_pos hsyn]
    omega
  rcases genuine seg hseg with empty | ⟨a, carried⟩
  · omega
  · have := carried.stop_le
    omega

/-- A FIN was sent exactly if the transmission has ended. -/
theorem Chronicle.hasFin_iff {c : TCPConnection} (h : Chronicle c)
    (noError : c.sender.stream.error = false) :
    c.HasFin ↔ c.sender.isTransmissionEnded = true := by
  refine ⟨fun ⟨seg, hseg, hfin⟩ => ?_, (h.tracked.live noError).finSent⟩
  obtain ⟨W, -, genuine⟩ := h.genuine
  rcases genuine seg hseg with empty | ⟨a, carried⟩
  · rw [TCPSegment.lengthInSequenceSpace, if_pos hfin] at empty
    omega
  · exact (carried.fin hfin).1

/-- **The sender summary is exact.**  In every state without error, reached by a run in
which `write` is not called after `end_input_stream`, the summary of the sender is

* CLOSED exactly if no SYN was sent;
* SYN_SENT exactly if the SYN was sent and is not acknowledged;
* FIN_SENT exactly if the SYN is acknowledged, the FIN was sent, and something is
  unacknowledged;
* FIN_ACKED exactly if the FIN was sent and everything is acknowledged;
* SYN_ACKED exactly if it is none of these. -/
theorem sender_summary {cfg : TCPConfig} (hcap : cfg.sendCapacity < 2 ^ 64) {c : TCPConnection}
    (run : GuardedRun step (fun c op => c.sender.nextSeqno < 2 ^ 64 ∧ c.NotAfterEnd op)
      (new cfg) c)
    (noError : c.sender.stream.error = false) :
    (TCPState.senderSummary c.sender = .closed ↔ ¬ c.HasSyn) ∧
      (TCPState.senderSummary c.sender = .synSent ↔ c.HasSyn ∧ c.sender.unaSeqno = 0) ∧
      (TCPState.senderSummary c.sender = .finSent ↔
        c.sender.unaSeqno ≠ 0 ∧ c.HasFin ∧ c.sender.unaSeqno ≠ c.sender.nextSeqno) ∧
      (TCPState.senderSummary c.sender = .finAcked ↔
        c.HasFin ∧ c.sender.unaSeqno = c.sender.nextSeqno) ∧
      (TCPState.senderSummary c.sender = .synAcked ↔
        c.HasSyn ∧ c.sender.unaSeqno ≠ 0 ∧
          ¬ (c.sender.unaSeqno ≠ 0 ∧ c.HasFin ∧ c.sender.unaSeqno ≠ c.sender.nextSeqno) ∧
          ¬ (c.HasFin ∧ c.sender.unaSeqno = c.sender.nextSeqno)) := by
  have chronicle : Chronicle c := run.invariant Chronicle (chronicle_new hcap)
    fun _ _ _ h guard stepped => h.step guard.1 guard.2 stepped
  obtain ⟨W, outbound, -⟩ := chronicle.genuine
  have inv := outbound.sound.inv
  have idle : c.sender.bytesInFlight = 0 ↔ c.sender.unaSeqno = c.sender.nextSeqno :=
    ⟨fun idle => (inv.settled idle).2, inv.idle_of_acked⟩
  have finLater : c.sender.isTransmissionEnded = true → c.sender.nextSeqno ≠ 0 := by
    intro ended unsent
    rw [(inv.positioned.unsent unsent).2] at ended
    cases ended
  have una_le := inv.una_le_next
  rw [chronicle.hasSyn_iff noError, chronicle.hasFin_iff noError,
    senderSummary_eq inv (chronicle.legible noError).apart (chronicle.drained noError) noError]
  -- the summary is a chain of tests on three numbers and a flag; each case decides all of them
  by_cases unsent : c.sender.nextSeqno = 0
  · have unacked : c.sender.unaSeqno = 0 := by omega
    have running : c.sender.isTransmissionEnded = false :=
      Bool.eq_false_iff.mpr fun ended => finLater ended unsent
    simp [unsent, unacked, running]
  by_cases unacked : c.sender.unaSeqno = 0
  · simp [unsent, unacked, Ne.symm unsent]
  cases ended : c.sender.isTransmissionEnded with
  | false => simp [unsent, unacked]
  | true =>
      by_cases acked : c.sender.unaSeqno = c.sender.nextSeqno
      · simp [unsent, acked, idle]
      · simp [unsent, unacked, acked, idle]

/-- A connection that ended its stream, all of it acknowledged. -/
theorem sender_summary_passiveClose :
    ∃ c, execute step (new { fixedIsn := ⟨0⟩ }) passiveClose = .ok c ∧ c.HasFin ∧
      TCPState.senderSummary c.sender = .finAcked := by
  obtain ⟨c, done, admitted, noError, hasFin, acked⟩ : ∃ c,
      execute step (new { fixedIsn := ⟨0⟩ }) passiveClose = .ok c ∧
      Admitted step (fun c op => c.sender.nextSeqno < 2 ^ 64 ∧ c.NotAfterEnd op)
        (new { fixedIsn := ⟨0⟩ }) passiveClose ∧
      c.sender.stream.error = false ∧ c.HasFin ∧
      c.sender.unaSeqno = c.sender.nextSeqno :=
    EndsIn.exists_ok (by decide +kernel)
  have hcap : 64000 < 2 ^ 64 := by decide
  obtain ⟨-, -, -, finAcked, -⟩ :=
    sender_summary hcap (GuardedRun.of_execute admitted done) noError
  exact ⟨c, done, hasFin, finAcked.mpr ⟨hasFin, acked⟩⟩

/-- An acknowledgment of nothing opens the window in SYN_SENT, and the stream ends. -/
def finAfterSyn : List Op :=
  [.connect, .segment { header := { ack := true, ackno := ⟨0⟩, win := 1000 } }, .endInputStream]

/-- **The FIN can be sent before the SYN is acknowledged**, and the summary is then still
SYN_SENT. So the summary does not say of every sender with a FIN that it has sent one. -/
theorem finSent_before_synAcked :
    ∃ c, execute step (new { fixedIsn := ⟨0⟩ }) finAfterSyn = .ok c ∧
      Admitted step (fun c op => c.sender.nextSeqno < 2 ^ 64 ∧ c.NotAfterEnd op)
        (new { fixedIsn := ⟨0⟩ }) finAfterSyn ∧
      c.sender.stream.error = false ∧ c.receiver.streamOut.error = false ∧
      c.HasSyn ∧ c.sender.unaSeqno = 0 ∧
      c.HasFin ∧ c.sender.unaSeqno ≠ c.sender.nextSeqno ∧
      TCPState.senderSummary c.sender = .synSent :=
  EndsIn.exists_ok (by decide +kernel)

end TCPConnection

end Sponge
