import Sponge.TCPSender.Accounting

/-!
# Runs of a sender

A session is a sender together with its history: the bytes its stream has accepted
and the segments `fill_window` has put on the outbound queue.  The owner may write,
close the stream, fill the window, report acknowledgments with any numbers, let
time pass, ask for an empty segment and take segments off the queue, in any order.

* `sender_accounting` — the counters describe the queue of outstanding segments,
  which is one contiguous stretch of sequence space.
* `sender_fidelity` — what is emitted is the stream, cut into segments without gap
  or overlap, and what is sent again was sent before.
* `unacceptable_ack_ignored_iff` — what an unacceptable acknowledgment changes is the
  window (`unacceptable_ack_opens_window`: so it can let bytes out).

The first two are about sessions in which `fill_window` does not meet an unsent SYN together
with a wide window and buffered bytes (`SynAlone`): the loop reuses its segment
object, and the SYN flag would stay on the segments after the first.

### What is asked of the owner

Nothing but `SynAlone`, and that the numbers fit their type: acknowledgments may have any
number and any window, ticks any length, and the segments may stay on the queue or be taken
off it.  Whether an owner meets `SynAlone` is a matter of the owner; a connection does, as
`TCPConnection.Outbound` shows.

### Why a history

The emitted segments leave the sender: they are popped from one queue by the owner and from
the other by acknowledgments.  So the fidelity statement is about the recorded list
`emitted`, and `History` ties it to what the sender still has.  That `emitted` is a layout
from `0` to `_next_seqno` is one fact which says at once that no byte is left out, none is
sent twice under two numbers, and every byte is where its number says.
-/

namespace Sponge

open Layouts Runs

namespace TCPSender

/-- A call on the sender or on its stream.  A connection uses its sender in fewer ways; here the
calls come in any order. -/
inductive Op where
  | write (data : List UInt8)
  | endInput
  | fillWindow
  | ackReceived (ackno : WrappingInt32) (windowSize : UInt16)
  | tick (ms : ℕ)
  | sendEmptySegment
  /-- The owner takes the first segment off the outbound queue. -/
  | dequeue
  deriving Repr, DecidableEq

/-- The sender after a call.  No operation of a sender throws. -/
def apply (s : TCPSender) : Op → TCPSender
  | .write data => { s with stream := (s.stream.write data).2 }
  | .endInput => { s with stream := s.stream.endInput }
  | .fillWindow => s.fillWindow
  | .ackReceived ackno windowSize => s.ackReceived ackno windowSize
  | .tick ms => s.tick ms
  | .sendEmptySegment => s.sendEmptySegment
  | .dequeue => { s with segmentsOut := s.segmentsOut.tail }

/-- A sender and the history of its use.  Neither part of the history is read by a step: it says
what the sender is to be compared with. -/
structure Session where
  s : TCPSender
  /-- The bytes accepted by the stream. -/
  accepted : List UInt8 := []
  /-- The segments put on the outbound queue by `fill_window`. -/
  emitted : List TCPSegment := []
  deriving Repr, DecidableEq

namespace Session

/-- A sender that has not been used. -/
def start (capacity : ℕ) (retxTimeout : UInt16) (isn : WrappingInt32) : Session :=
  { s := TCPSender.new capacity retxTimeout isn }

/-- The session after a call: the sender is what the call leaves, and the history grows by what
`write` and `fill_window` have done. -/
def next (t : Session) (op : Op) : Session :=
  match op with
  | .write data =>
      { t with
        s := t.s.apply op
        accepted := t.accepted ++ data.take (t.s.stream.write data).1 }
  | .fillWindow =>
      { t with
        s := t.s.apply op
        emitted := t.emitted ++ (t.s.apply op).segmentsOut.drop t.s.segmentsOut.length }
  | .endInput | .ackReceived _ _ | .tick _ | .sendEmptySegment | .dequeue =>
      { t with s := t.s.apply op }

def step (t : Session) (op : Op) : Except Empty Session := .ok (t.next op)

/-- `fill_window` is only called where the SYN goes alone. -/
def FillsAlone (t : Session) : Op → Prop
  | .fillWindow => t.s.SynAlone
  | _ => True

instance decidableFillsAlone (t : Session) : ∀ op, Decidable (t.FillsAlone op)
  | .fillWindow => inferInstanceAs (Decidable t.s.SynAlone)
  | .write _ | .endInput | .ackReceived _ _ | .tick _ | .sendEmptySegment | .dequeue =>
      inferInstanceAs (Decidable True)

/-- Moreover the call leaves `_next_seqno` a `uint64_t`, which it is in the source: the model does
not wrap it. -/
def Numbered (t : Session) (op : Op) : Prop :=
  (t.next op).s.nextSeqno < 2 ^ 64 ∧ t.FillsAlone op

instance (t : Session) (op : Op) : Decidable (t.Numbered op) :=
  inferInstanceAs (Decidable (_ ∧ _))

/-! ## Fidelity -/

/-- The history agrees with the sender.  The segments that were emitted lie one after the other
from number `0` on, and those that are outstanding are the last ones of them. -/
structure History (t : Session) : Prop where
  synced : Synced t.accepted t.s
  placed : Placed t.accepted t.s.isn 0 t.emitted t.s.nextSeqno
  outstanding : t.s.outstandingSegments <:+ t.emitted
  payloads : t.emitted.flatMap TCPSegment.payload = t.accepted.take t.s.stream.bytesRead
  /-- A segment that is followed by another carries no FIN. -/
  finLast : t.emitted.Pairwise fun seg _ => seg.header.fin = false
  ended : t.s.isTransmissionEnded = t.emitted.any fun seg => seg.header.fin

/-- Nothing has been written and nothing emitted. -/
theorem history_start {capacity : ℕ} (h : capacity < 2 ^ 64) (retxTimeout : UInt16)
    (isn : WrappingInt32) : History (start capacity retxTimeout isn) where
  synced := synced_new h retxTimeout isn
  placed := rfl
  outstanding := List.suffix_rfl
  payloads := rfl
  finLast := List.Pairwise.nil
  ended := rfl

/-- What `fill_window` adds to the history is what it adds to the queue. -/
theorem emitted_fillWindow {t : Session} {new : List TCPSegment}
    (filled : Filled t.accepted t.s new t.s.fillWindow) :
    (t.next .fillWindow).emitted = t.emitted ++ new := by
  simp only [next, apply, filled.segmentsOut, List.drop_left]

/-- The bytes consumed by the new segments come next in the stream. -/
theorem History.payloads_fillWindow {t : Session} (h : History t) {new : List TCPSegment}
    (filled : Filled t.accepted t.s new t.s.fillWindow) :
    (t.emitted ++ new).flatMap TCPSegment.payload
      = t.accepted.take t.s.fillWindow.stream.bytesRead := by
  have hrest : t.accepted.drop t.s.stream.bytesRead
      = new.flatMap TCPSegment.payload ++ t.s.fillWindow.stream.str :=
    h.synced.buffers.rest.trans filled.consumed.str_eq
  rw [List.flatMap_append, h.payloads, filled.consumed.bytesRead_eq, List.take_add, hrest,
    List.take_left]

/-- Filling appends a layout to a layout. -/
theorem History.fillWindow {t : Session} (h : History t) (alone : t.s.SynAlone) :
    History (t.next .fillWindow) := by
  obtain ⟨new, filled, -⟩ := h.synced.fillWindow alone
  have hemitted := emitted_fillWindow filled
  refine ⟨h.synced.filled filled, ?_, ?_, ?_, ?_, ?_⟩
  · rw [hemitted]
    show Placed t.accepted t.s.fillWindow.isn 0 _ t.s.fillWindow.nextSeqno
    rw [filled.isn_eq]
    exact h.placed.append filled.placed
  · rw [hemitted]
    show t.s.fillWindow.outstandingSegments <:+ _
    obtain ⟨acked, hacked⟩ := h.outstanding
    rw [filled.outstanding, ← hacked, List.append_assoc]
    exact List.suffix_append _ _
  · rw [hemitted]
    exact h.payloads_fillWindow filled
  · -- a FIN sent earlier means that nothing new was sent
    rw [hemitted]
    refine List.pairwise_append.mpr ⟨h.finLast, filled.finLast, fun seg hseg seg' hseg' => ?_⟩
    refine Bool.eq_false_iff.mpr fun hfin => ?_
    have ended : t.s.isTransmissionEnded = true := by
      rw [h.ended]
      exact List.any_eq_true.mpr ⟨seg, hseg, hfin⟩
    rw [filled.stopped ended] at hseg'
    cases hseg'
  · rw [hemitted, List.any_append, ← h.ended]
    exact filled.ended

/-- An operation that sends nothing new keeps the history, if it keeps the stream's
position, the sequence numbers and the FIN, and only pops from the front. -/
theorem History.congr {t : Session} (h : History t) {s' : TCPSender}
    (synced : Synced t.accepted s') (isn : s'.isn = t.s.isn)
    (next : s'.nextSeqno = t.s.nextSeqno) (read : s'.stream.bytesRead = t.s.stream.bytesRead)
    (ended : s'.isTransmissionEnded = t.s.isTransmissionEnded)
    (popped : s'.outstandingSegments <:+ t.s.outstandingSegments) :
    History { t with s := s' } where
  synced := synced
  placed := by
    show Placed t.accepted s'.isn 0 t.emitted s'.nextSeqno
    rw [isn, next]
    exact h.placed
  outstanding := popped.trans h.outstanding
  payloads := by
    show _ = t.accepted.take s'.stream.bytesRead
    rw [read]
    exact h.payloads
  finLast := h.finLast
  ended := ended.trans h.ended

/-- Writing appends to the stream and to what it has accepted. -/
theorem History.write {t : Session} (h : History t) (data : List UInt8) :
    History (t.next (.write data)) where
  synced := h.synced.write data
  placed := h.placed.mono fun _ _ hat => hat.grow _
  outstanding := h.outstanding
  payloads := by
    show _ = (t.accepted ++ _).take (t.s.stream.write data).2.bytesRead
    rw [ByteStream.write_bytesRead, List.take_append_of_le_length h.synced.buffers.read_le]
    exact h.payloads
  finLast := h.finLast
  ended := h.ended

/-- Every call keeps the history, given that the SYN goes alone. -/
theorem History.next {t : Session} {op : Op} (h : History t) (alone : t.FillsAlone op) :
    History (t.next op) := by
  cases op with
  | write data => exact h.write data
  | endInput => exact h.congr h.synced.endInput rfl rfl rfl rfl List.suffix_rfl
  | fillWindow => exact h.fillWindow alone
  | ackReceived ackno windowSize =>
      obtain ⟨popped, frame⟩ := t.s.ackReceived_effect ackno windowSize
      refine h.congr (h.synced.ackReceived ackno windowSize) ?_ ?_ ?_ ?_ popped <;> rw [apply, frame]
  | tick ms =>
      obtain ⟨again, -, -, frame⟩ := t.s.tick_effect ms
      have outstanding : (t.s.tick ms).outstandingSegments = t.s.outstandingSegments := by
        rw [frame]
      have suffix : (t.s.tick ms).outstandingSegments <:+ t.s.outstandingSegments :=
        outstanding ▸ List.suffix_rfl
      refine h.congr (h.synced.tick ms) ?_ ?_ ?_ ?_ suffix <;> rw [apply, frame]
  | sendEmptySegment =>
      exact h.congr (h.synced.congr rfl rfl rfl) rfl rfl rfl rfl List.suffix_rfl
  | dequeue => exact h.congr (h.synced.congr rfl rfl rfl) rfl rfl rfl rfl List.suffix_rfl

theorem history_of_run {capacity : ℕ} (hcap : capacity < 2 ^ 64) {retxTimeout : UInt16}
    {isn : WrappingInt32} {t : Session}
    (run : GuardedRun step FillsAlone (start capacity retxTimeout isn) t) : History t :=
  run.invariant History (history_start hcap retxTimeout isn) fun t op t' h alone hstep => by
    obtain rfl := Except.ok.inj hstep
    exact h.next alone

/-- **Sender fidelity.**  In every session state reached with `_next_seqno` below `2^64`:

* the segments emitted by `fill_window` occupy the sequence numbers from `0` to
  `_next_seqno` without gap or overlap, the SYN is set exactly on the one at `0`, and
  no payload exceeds the maximum;
* their payloads are exactly the bytes consumed from the stream so far;
* only the last one may carry the FIN;
* a FIN that `fill_window` emits next finds the stream closed and all of it sent;
* what `tick` sends was emitted before and is still outstanding. -/
theorem sender_fidelity {capacity : ℕ} (hcap : capacity < 2 ^ 64) (retxTimeout : UInt16)
    (isn : WrappingInt32) {t : Session}
    (run : GuardedRun step Numbered (start capacity retxTimeout isn) t) :
    LaidOut TCPSegment.lengthInSequenceSpace
      (fun a seg => seg.header.seqno = wrap a t.s.isn ∧ (seg.header.syn = true ↔ a = 0) ∧
        seg.payload.length ≤ TCPConfig.maxPayloadSize ∧ 0 < seg.lengthInSequenceSpace)
      0 t.emitted t.s.nextSeqno ∧
    (t.emitted.flatMap TCPSegment.payload = t.accepted.take t.s.stream.bytesRead ∧
      t.s.stream.bytesRead ≤ t.accepted.length) ∧
    t.emitted.Pairwise (fun seg _ => seg.header.fin = false) ∧
    (t.Numbered .fillWindow →
      ∀ seg ∈ (t.next .fillWindow).emitted.drop t.emitted.length, seg.header.fin = true →
        (t.next .fillWindow).s.stream.inputEnded = true ∧
          (t.next .fillWindow).emitted.flatMap TCPSegment.payload = t.accepted) ∧
    ∀ ms, ∃ again, (t.s.tick ms).segmentsOut = t.s.segmentsOut ++ again ∧
      ∀ seg ∈ again, seg ∈ t.emitted ∧ seg ∈ t.s.outstandingSegments := by
  have h := history_of_run hcap (run.mono fun _ _ numbered => numbered.2)
  refine ⟨h.placed.mono fun _ _ hat => ⟨hat.seqno, hat.syn_iff, hat.payload_le, hat.occupied⟩,
    ⟨h.payloads, h.synced.buffers.read_le⟩, h.finLast, ?_, ?_⟩
  · intro numbered seg hseg hfin
    obtain ⟨new, filled, -⟩ := h.synced.fillWindow numbered.2
    rw [emitted_fillWindow filled] at hseg ⊢
    rw [List.drop_left] at hseg
    obtain ⟨hended, hempty⟩ := filled.finished ⟨seg, hseg, hfin⟩
    refine ⟨hended, ?_⟩
    -- with the buffer empty, the bytes consumed are all there are
    have buffers := h.synced.buffers.consumed filled.consumed
    have hrest := buffers.rest
    rw [hempty, List.drop_eq_nil_iff] at hrest
    rw [h.payloads_fillWindow filled, List.take_of_length_le hrest]
  · intro ms
    obtain ⟨again, hout, hagain, -⟩ := t.s.tick_effect ms
    exact ⟨again, hout, fun seg hseg =>
      ⟨h.outstanding.subset (hagain seg hseg), hagain seg hseg⟩⟩

/-- A SYN, its acknowledgment, and seven bytes cut by a window of five. -/
def windowOfFive : List Op :=
  [.fillWindow, .ackReceived ⟨1⟩ 5, .write [1, 2, 3, 4, 5, 6, 7], .fillWindow]

theorem sender_fidelity_windowOfFive :
    (windowOfFive.foldl next (start 100 1000 ⟨0⟩)).emitted.flatMap TCPSegment.payload
      = [1, 2, 3, 4, 5] := by
  have hcap : 100 < 2 ^ 64 := by decide
  have done : execute step (start 100 1000 ⟨0⟩) windowOfFive
      = .ok (windowOfFive.foldl next (start 100 1000 ⟨0⟩)) := rfl
  have run := GuardedRun.of_execute (show Admitted step Numbered _ _ by decide +kernel) done
  rw [(sender_fidelity hcap 1000 ⟨0⟩ run).2.1.1]
  decide +kernel

/-! ## Accounting -/

/-- Sequence numbers never go back. -/
theorem History.nextSeqno_le {t : Session} {op : Op} (h : History t)
    (alone : t.FillsAlone op) : t.s.nextSeqno ≤ (t.next op).s.nextSeqno := by
  cases op with
  | fillWindow =>
      obtain ⟨new, filled, -⟩ := h.synced.fillWindow alone
      exact filled.placed.le
  | ackReceived ackno windowSize =>
      show _ ≤ (t.s.ackReceived ackno windowSize).nextSeqno
      rw [(t.s.ackReceived_effect ackno windowSize).2]
  | tick ms =>
      obtain ⟨again, -, -, frame⟩ := t.s.tick_effect ms
      show _ ≤ (t.s.tick ms).nextSeqno
      rw [frame]
  | write data => exact le_rfl
  | endInput => exact le_rfl
  | sendEmptySegment => exact le_rfl
  | dequeue => exact le_rfl

/-- One call keeps the accounting invariant, from a state whose numbers fit. -/
theorem inv_next {t : Session} {op : Op} (inv : Inv t.accepted t.s) (alone : t.FillsAlone op)
    (hnext : t.s.nextSeqno < 2 ^ 64) : Inv (t.next op).accepted (t.next op).s := by
  cases op with
  | write data => exact inv.write data
  | endInput => exact inv.endInput
  | fillWindow =>
      obtain ⟨new, -, inv', -⟩ := inv.fillWindow alone
      exact inv'
  | ackReceived ackno windowSize => exact (inv.ackReceived hnext ackno windowSize).1
  | tick ms => exact inv.tick ms
  | sendEmptySegment => exact inv.sendEmptySegment
  | dequeue => exact inv.congr inv.windowSize_le rfl

/-- The accounting invariant holds as long as `_next_seqno` is a `uint64_t`. -/
theorem inv_of_run {capacity : ℕ} (hcap : capacity < 2 ^ 64) {retxTimeout : UInt16}
    {isn : WrappingInt32} {t : Session}
    (run : GuardedRun step FillsAlone (start capacity retxTimeout isn) t)
    (hnext : t.s.nextSeqno < 2 ^ 64) : Inv t.accepted t.s := by
  refine (run.invariant (fun t => History t ∧ (t.s.nextSeqno < 2 ^ 64 → Inv t.accepted t.s))
    ⟨history_start hcap retxTimeout isn, fun _ => inv_new hcap retxTimeout isn⟩ ?_).2 hnext
  rintro t op t' ⟨history, ih⟩ alone hstep
  obtain rfl := Except.ok.inj hstep
  refine ⟨history.next alone, fun hnext' => ?_⟩
  have hlt := (history.nextSeqno_le alone).trans_lt hnext'
  exact inv_next (ih hlt) alone hlt

/-- **Sender accounting.**  In every session state with `_next_seqno` below `2^63`:
the outstanding segments form one contiguous stretch of sequence space that ends at
`_next_seqno`; `_bytes_in_flight` is its length and fits a 16-bit window;
`_una_seqno` lies in the first segment, or is `_next_seqno` if there is none; and no
acknowledgment, whatever its number, makes the count underflow. -/
theorem sender_accounting {capacity : ℕ} (hcap : capacity < 2 ^ 64) (retxTimeout : UInt16)
    (isn : WrappingInt32) {t : Session}
    (run : GuardedRun step FillsAlone (start capacity retxTimeout isn) t)
    (hnext : t.s.nextSeqno < 2 ^ 63) :
    (∃ first,
      LaidOut TCPSegment.lengthInSequenceSpace
        (fun a seg => seg.header.seqno = wrap a t.s.isn) first t.s.outstandingSegments
        t.s.nextSeqno ∧
      (∀ seg rest, t.s.outstandingSegments = seg :: rest →
        first ≤ t.s.unaSeqno ∧ t.s.unaSeqno < first + seg.lengthInSequenceSpace) ∧
      (t.s.outstandingSegments = [] → t.s.unaSeqno = t.s.nextSeqno)) ∧
    t.s.bytesInFlight = (t.s.outstandingSegments.map TCPSegment.lengthInSequenceSpace).sum ∧
    t.s.bytesInFlight ≤ 65535 ∧
    ∀ ackno, t.s.NoUnderflow (unwrap ackno t.s.isn t.s.nextSeqno) t.s.bytesInFlight
      t.s.outstandingSegments := by
  have hnext64 : t.s.nextSeqno < 2 ^ 64 := by omega
  have inv := inv_of_run hcap run hnext64
  obtain ⟨first, placed, flight, una⟩ := inv.inFlight
  have hstop := placed.stop_eq
  refine ⟨⟨first, placed.mono fun _ _ h => h.seqno, ?_, ?_⟩, by omega, inv.flight_le, ?_⟩
  · intro seg rest hout
    rw [hout] at una
    exact una
  · intro hout
    rw [hout] at una placed
    exact una.trans placed
  · intro ackno
    exact (popAcked_spec _ hnext64 placed flight inv.flight_le).1

/-- Five bytes are in flight, and no acknowledgment makes the count underflow. -/
theorem sender_accounting_windowOfFive :
    (windowOfFive.foldl next (start 100 1000 ⟨0⟩)).s.bytesInFlight = 5 ∧
      ∀ ackno, (windowOfFive.foldl next (start 100 1000 ⟨0⟩)).s.NoUnderflow
        (unwrap ackno (windowOfFive.foldl next (start 100 1000 ⟨0⟩)).s.isn
          (windowOfFive.foldl next (start 100 1000 ⟨0⟩)).s.nextSeqno)
        (windowOfFive.foldl next (start 100 1000 ⟨0⟩)).s.bytesInFlight
        (windowOfFive.foldl next (start 100 1000 ⟨0⟩)).s.outstandingSegments := by
  have hcap : 100 < 2 ^ 64 := by decide
  have done : execute step (start 100 1000 ⟨0⟩) windowOfFive
      = .ok (windowOfFive.foldl next (start 100 1000 ⟨0⟩)) := rfl
  have run := GuardedRun.of_execute (show Admitted step FillsAlone _ _ by decide +kernel) done
  obtain ⟨-, hsum, -, safe⟩ := sender_accounting hcap 1000 ⟨0⟩ run (by decide +kernel)
  refine ⟨?_, safe⟩
  rw [hsum]
  decide +kernel

/-! ## Unacceptable acknowledgments -/

/-- An acknowledgment of something never sent, or of less than is acknowledged
already. -/
def Unacceptable (s : TCPSender) (ackno : WrappingInt32) : Prop :=
  unwrap ackno s.isn s.nextSeqno > s.nextSeqno ∨ unwrap ackno s.isn s.nextSeqno < s.unaSeqno

instance (s : TCPSender) (ackno : WrappingInt32) : Decidable (Unacceptable s ackno) :=
  inferInstanceAs (Decidable (_ ∨ _))

/-- **An unacceptable acknowledgment is ignored but for its window**, so it leaves the
sender as it was exactly if it announces the window the sender has already. -/
theorem unacceptable_ack_ignored_iff (s : TCPSender) (ackno : WrappingInt32)
    (windowSize : UInt16) (unacceptable : Unacceptable s ackno) :
    s.ackReceived ackno windowSize = s ↔ windowSize.toNat = s.windowSize := by
  have hwin : s.ackReceived ackno windowSize = { s with windowSize := windowSize.toNat } := by
    unfold TCPSender.ackReceived
    refine if_pos ?_
    rcases unacceptable with above | below
    · exact Or.inr above
    · exact Or.inl below.le
  rw [hwin]
  constructor
  · intro same
    exact congrArg TCPSender.windowSize same
  · intro same
    rw [same]

/-- A sender that has sent its SYN and nothing else. -/
def synSent : TCPSender := (TCPSender.new 100 1000 ⟨0⟩).fillWindow

theorem unacceptable_ack_ignored_iff_synSent : synSent.ackReceived ⟨2⟩ 1 = synSent :=
  (unacceptable_ack_ignored_iff synSent ⟨2⟩ 1 (by decide +kernel)).mpr (by decide +kernel)

/-- **An impossible acknowledgment opens the window.**  The SYN is in flight and fills
the window of one, so three written bytes wait.  An acknowledgment of number two, which
was never sent, changes the window, and the bytes leave before the handshake is
complete. -/
theorem unacceptable_ack_opens_window :
    ∃ t, GuardedRun step FillsAlone (start 100 1000 ⟨0⟩) t ∧ Unacceptable t.s ⟨2⟩ ∧
      t.s.ackReceived ⟨2⟩ 1000 ≠ t.s ∧ t.s.fillWindow = t.s ∧
      (t.s.ackReceived ⟨2⟩ 1000).unaSeqno = 0 ∧
      ∃ seg ∈ (t.s.ackReceived ⟨2⟩ 1000).fillWindow.segmentsOut, seg.payload = [1, 2, 3] := by
  obtain ⟨t, done, admitted, h⟩ : ∃ t, execute step (start 100 1000 ⟨0⟩)
        [.fillWindow, .write [1, 2, 3], .fillWindow] = .ok t ∧
      Admitted step FillsAlone (start 100 1000 ⟨0⟩)
        [.fillWindow, .write [1, 2, 3], .fillWindow] ∧
      Unacceptable t.s ⟨2⟩ ∧ t.s.ackReceived ⟨2⟩ 1000 ≠ t.s ∧ t.s.fillWindow = t.s ∧
      (t.s.ackReceived ⟨2⟩ 1000).unaSeqno = 0 ∧
      ∃ seg ∈ (t.s.ackReceived ⟨2⟩ 1000).fillWindow.segmentsOut, seg.payload = [1, 2, 3] :=
    EndsIn.exists_ok (by decide +kernel)
  exact ⟨t, GuardedRun.of_execute admitted done, h⟩

end Session

end TCPSender

end Sponge
