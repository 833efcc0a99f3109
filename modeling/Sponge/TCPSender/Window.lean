import Sponge.TCPSender.Passes

/-!
# `fill_window` respects and exhausts the window

The loop of `fill_window` compares `_bytes_in_flight` with the window three times in
every pass, each time by an unsigned subtraction.  `PassFits` says that none of them
underflows, and `Exhausted` what stops the loop.

* `fillWindow_window` — in every session in which the SYN goes alone, a call of
  `fill_window` makes at most one pass more than there are bytes in the buffer, sends
  nothing past the window, never underflows, and leaves no room in the window unless
  the FIN has been sent or there is nothing to send.

### Three subtractions, three facts

`PassFits` has one field for each subtraction of a pass, and they are about three different
moments: after the SYN is counted, after the payload is, and at the end.  They follow from
the one fact that a pass is entered with room (`Ready.room`) and that each part takes no
more than is left.

### Why exhaustion is worth stating

A loop that stops too early would satisfy every safety statement.  `Exhausted` says that
`fill_window` leaves nothing undone: a byte that waits in the buffer afterwards waits for
the window.  What the peer must do for the rest to be sent is therefore to open it, and
nothing else.
-/

namespace Sponge

open Layouts Runs

namespace TCPSender

/-- A window of zero counts as one. -/
theorem actualWindowSize_eq (s : TCPSender) : s.actualWindowSize = max s.windowSize 1 := by
  unfold actualWindowSize
  split <;> omega

/-- **No subtraction of a pass underflows**: neither the one that sizes the payload, nor
the one that looks for room for the FIN, nor the one in the condition of the loop. -/
structure PassFits (window : ℕ) (p : TCPSender × TCPSegment) : Prop where
  payload : (p.1.stamp p.2).1.bytesInFlight ≤ window
  fin : (load window (p.1.stamp p.2).1 (p.1.stamp p.2).2).1.bytesInFlight ≤ window
  condition : (p.1.fillStep window p.2).1.bytesInFlight ≤ window

/-- **What stops `fill_window`**: the FIN has been sent, the window is full, or there is
nothing to send. -/
def Exhausted (s : TCPSender) : Prop :=
  s.isTransmissionEnded = true ∨ s.actualWindowSize ≤ s.bytesInFlight ∨
    (s.stream.bufferEmpty = true ∧ s.stream.inputEnded = false)

/-! ## The number of passes -/

/-- Every pass but the last takes a byte from the buffer. -/
theorem fillPasses_length_le (window : ℕ) (s : TCPSender) (seg : TCPSegment) :
    (fillPasses window s seg).length ≤ s.stream.bufferSize + 1 := by
  induction s, seg using TCPSender.fillLoop.induct window with
  | case1 s seg ended =>
      rw [fillPasses, if_pos ended]
      exact Nat.zero_le _
  | case2 s seg running more ih =>
      have := fillStep_decreases more
      rw [fillPasses, if_neg running, dif_pos more, List.length_cons]
      omega
  | case3 s seg running done =>
      rw [fillPasses, if_neg running, dif_neg done, List.length_singleton]
      omega

/-- The same for a call of `fill_window`. -/
theorem windowPasses_length_le (s : TCPSender) :
    s.windowPasses.length ≤ s.stream.bufferSize + 1 := by
  unfold windowPasses
  split
  · exact Nat.zero_le _
  · exact fillPasses_length_le _ s _

section Loop

variable {W : List UInt8} {window : ℕ} {s : TCPSender} {seg : TCPSegment}

/-! ## No underflow -/

/-- A pass that is entered with room underflows nowhere. -/
theorem Ready.passFits (ready : Ready W window s seg) : PassFits window (s, seg) where
  payload := by
    have room := ready.room
    rw [stamp_eq s ready.noSyn]
    simp only [synCount]
    split <;> omega
  fin := (ready.load rfl).2.2.2
  condition := by
    rw [fillStep_eq, emit_bytesInFlight]
    exact ready.cut.2

/-- Every pass finds the loop ready. -/
theorem Ready.passes (ready : Ready W window s seg) :
    ∀ p ∈ fillPasses window s seg, Ready W window p.1 p.2 := by
  induction s, seg using TCPSender.fillLoop.induct window with
  | case1 s seg ended =>
      rw [fillPasses, if_pos ended]
      simp
  | case2 s seg running more ih =>
      rw [fillPasses, if_neg running, dif_pos more]
      intro p hp
      rcases List.mem_cons.mp hp with rfl | hp
      · exact ready
      · exact ih (ready.next more) p hp
  | case3 s seg running done =>
      rw [fillPasses, if_neg running, dif_neg done]
      intro p hp
      obtain rfl := List.mem_singleton.mp hp
      exact ready

/-! ## What is left when the loop ends -/

/-- The FIN goes out with the last byte unless the window is full. -/
theorem finish_exhausts {t : TCPSender} (x : TCPSegment) (fits : t.bytesInFlight ≤ window)
    (empty : t.stream.bufferEmpty = true) (ended : t.stream.inputEnded = true) :
    (t.finish window x).1.isTransmissionEnded = true ∨
      window ≤ (t.finish window x).1.bytesInFlight := by
  unfold finish
  split
  · exact Or.inl rfl
  · next full =>
    have done : (t.stream.inputEnded && t.stream.eof) = true := by
      rw [ByteStream.eof, ended, empty]
      rfl
    have hspace : sub64 window t.bytesInFlight = 0 := by
      by_contra hspace
      exact full ⟨done, hspace⟩
    rw [sub64_of_le fits] at hspace
    exact Or.inr (Nat.sub_eq_zero_iff_le.mp hspace)

/-- The pass after which the loop ends. -/
theorem Ready.stops (ready : Ready W window s seg)
    (done : ¬ (s.fillStep window seg).1.MoreToFill window) :
    (s.fillStep window seg).1.isTransmissionEnded = true ∨
      window ≤ (s.fillStep window seg).1.bytesInFlight ∨
      ((s.fillStep window seg).1.stream.bufferEmpty = true ∧
        (s.fillStep window seg).1.stream.inputEnded = false) := by
  have fits := ready.passFits
  cases empty : (s.fillStep window seg).1.stream.bufferEmpty with
  | false =>
      have hspace : sub64 window (s.fillStep window seg).1.bytesInFlight = 0 := by
        by_contra hspace
        exact done ⟨empty, hspace⟩
      rw [sub64_of_le fits.condition] at hspace
      exact Or.inr (Or.inl (Nat.sub_eq_zero_iff_le.mp hspace))
  | true =>
      cases ended : (s.fillStep window seg).1.stream.inputEnded with
      | false => exact Or.inr (Or.inr ⟨rfl, rfl⟩)
      | true =>
          rw [fillStep_eq, emit_stream, TCPSender.cut, finish_stream] at empty ended
          rw [fillStep_eq, emit_isTransmissionEnded, emit_bytesInFlight]
          exact (finish_exhausts _ fits.fin empty ended).imp_right Or.inl

/-- **The loop ends exhausted.**  By induction over the passes: the last one leaves no room or no
bytes, and if the stream has ended as well it has sent the FIN or had no room for it. -/
theorem Ready.exhausts (ready : Ready W window s seg) :
    (TCPSender.fillLoop window s seg).isTransmissionEnded = true ∨
      window ≤ (TCPSender.fillLoop window s seg).bytesInFlight ∨
      ((TCPSender.fillLoop window s seg).stream.bufferEmpty = true ∧
        (TCPSender.fillLoop window s seg).stream.inputEnded = false) := by
  induction s, seg using TCPSender.fillLoop.induct window with
  | case1 s seg ended =>
      rw [ready.running] at ended
      cases ended
  | case2 s seg running more ih =>
      rw [TCPSender.fillLoop, if_neg running, dif_pos more]
      exact ih (ready.next more)
  | case3 s seg running done =>
      rw [TCPSender.fillLoop, if_neg running, dif_neg done]
      exact ready.stops done

end Loop

section Call

variable {W : List UInt8} {s : TCPSender}

/-- Filling does not change the window. -/
theorem fillWindow_actualWindowSize (s : TCPSender) :
    s.fillWindow.actualWindowSize = s.actualWindowSize := by
  rw [s.fillWindow_queued.frame]
  rfl

/-- A call of `fill_window` leaves the sender exhausted. -/
theorem Synced.exhausts (h : Synced W s) (alone : s.SynAlone) : s.fillWindow.Exhausted := by
  rw [Exhausted, fillWindow_actualWindowSize]
  unfold TCPSender.fillWindow
  split
  · next full => exact Or.inr (Or.inl full)
  · next room =>
    by_cases ended : s.isTransmissionEnded = true
    · refine Or.inl ?_
      rw [TCPSender.fillLoop, if_pos ended]
      exact ended
    · exact (h.ready alone (not_le.mp room) (Bool.eq_false_iff.mpr ended)).exhausts

/-- No pass of a call underflows. -/
theorem Synced.windowPasses_fit (h : Synced W s) (alone : s.SynAlone) :
    ∀ p ∈ s.windowPasses, PassFits s.actualWindowSize p := by
  unfold windowPasses
  split
  · simp
  · next room =>
    by_cases ended : s.isTransmissionEnded = true
    · rw [fillPasses, if_pos ended]
      simp
    · intro p hp
      exact ((h.ready alone (not_le.mp room) (Bool.eq_false_iff.mpr ended)).passes p hp).passFits

/-- **Nothing is sent past the window**: what is new ends at most a window past `_una_seqno`.  The
bound is the window that the sender acts on, which is one where the peer announces none. -/
theorem Inv.fillWindow_within (inv : Inv W s) (alone : s.SynAlone) :
    ∃ new, s.fillWindow.segmentsOut = s.segmentsOut ++ new ∧
      LaidOut TCPSegment.lengthInSequenceSpace
        (fun a seg => seg.header.seqno = wrap a s.isn ∧
          a + seg.lengthInSequenceSpace ≤ s.unaSeqno + s.actualWindowSize)
        s.nextSeqno new s.fillWindow.nextSeqno := by
  obtain ⟨new, filled, fits, -⟩ := inv.toSynced.fillWindow alone
  refine ⟨new, filled.segmentsOut, ?_⟩
  by_cases full : s.actualWindowSize ≤ s.bytesInFlight
  · have same : s.fillWindow = s := if_pos full
    have none : new = [] := by
      have hout := filled.segmentsOut
      rw [same] at hout
      exact List.self_eq_append_right.mp hout
    rw [none, same]
    rfl
  · -- in flight is what lies between the first outstanding number and the next one
    obtain ⟨first, placed, flight, una⟩ := inv.inFlight
    have hfirst : first ≤ s.unaSeqno := una.le
    have balance := filled.flight
    refine filled.placed.bounded.mono fun a seg hat => ⟨hat.1.seqno, ?_⟩
    have := hat.2
    omega

end Call

namespace Session

/-- **`fill_window` respects and exhausts the window.**  In every session in which the
SYN goes alone:

* the call makes at most one pass more than there are bytes in the buffer, and ends
  where the last one does;
* every segment it emits ends at most `max(_window_size, 1)` past `_una_seqno`;
* no subtraction of a count in flight from the window underflows;
* on return the FIN has been emitted, or the window is full, or the stream is empty and
  not ended. -/
theorem fillWindow_window {capacity : ℕ} (hcap : capacity < 2 ^ 64) (retxTimeout : UInt16)
    (isn : WrappingInt32) {t : Session}
    (run : GuardedRun step FillsAlone (start capacity retxTimeout isn) t)
    (alone : t.FillsAlone .fillWindow) (hnext : t.s.nextSeqno < 2 ^ 64) :
    (t.s.windowPasses.length ≤ t.s.stream.bufferSize + 1 ∧
      t.s.fillWindow = (t.s.windowPasses.map fun p =>
        (p.1.fillStep t.s.actualWindowSize p.2).1).getLastD t.s) ∧
    (∃ new, t.s.fillWindow.segmentsOut = t.s.segmentsOut ++ new ∧
      LaidOut TCPSegment.lengthInSequenceSpace
        (fun a seg => seg.header.seqno = wrap a t.s.isn ∧
          a + seg.lengthInSequenceSpace ≤ t.s.unaSeqno + max t.s.windowSize 1)
        t.s.nextSeqno new t.s.fillWindow.nextSeqno) ∧
    (∀ p ∈ t.s.windowPasses,
      (p.1.stamp p.2).1.bytesInFlight ≤ t.s.actualWindowSize ∧
      (load t.s.actualWindowSize (p.1.stamp p.2).1 (p.1.stamp p.2).2).1.bytesInFlight
        ≤ t.s.actualWindowSize ∧
      (p.1.fillStep t.s.actualWindowSize p.2).1.bytesInFlight ≤ t.s.actualWindowSize) ∧
    ((∃ seg ∈ (t.next .fillWindow).emitted, seg.header.fin = true) ∨
      max t.s.fillWindow.windowSize 1 ≤ t.s.fillWindow.bytesInFlight ∨
      (t.s.fillWindow.stream.bufferEmpty = true ∧
        t.s.fillWindow.stream.inputEnded = false)) := by
  have inv := inv_of_run hcap run hnext
  have history := (history_of_run hcap run).next alone
  refine ⟨⟨t.s.windowPasses_length_le, t.s.fillWindow_eq_last⟩, ?_, ?_, ?_⟩
  · rw [← actualWindowSize_eq]
    exact inv.fillWindow_within alone
  · intro p hp
    have fits := inv.toSynced.windowPasses_fit alone p hp
    exact ⟨fits.payload, fits.fin, fits.condition⟩
  · rw [← actualWindowSize_eq]
    refine (inv.toSynced.exhausts alone).imp_left fun ended => ?_
    have emitted : (t.next .fillWindow).emitted.any (fun seg => seg.header.fin) = true :=
      history.ended ▸ ended
    obtain ⟨seg, hseg, hfin⟩ := List.any_eq_true.mp emitted
    exact ⟨seg, hseg, hfin⟩

/-- Seven bytes, cut by a window of five: two wait. -/
theorem fillWindow_window_five :
    ∃ t, execute step (start 100 1000 ⟨0⟩)
        [.fillWindow, .ackReceived ⟨1⟩ 5, .write [1, 2, 3, 4, 5, 6, 7]] = .ok t ∧
      5 ≤ t.s.fillWindow.bytesInFlight := by
  obtain ⟨t, done, admitted, alone, hnext, window, open_⟩ : ∃ t,
      execute step (start 100 1000 ⟨0⟩)
        [.fillWindow, .ackReceived ⟨1⟩ 5, .write [1, 2, 3, 4, 5, 6, 7]] = .ok t ∧
      Admitted step FillsAlone (start 100 1000 ⟨0⟩)
        [.fillWindow, .ackReceived ⟨1⟩ 5, .write [1, 2, 3, 4, 5, 6, 7]] ∧
      t.FillsAlone .fillWindow ∧ t.s.nextSeqno < 2 ^ 64 ∧ t.s.fillWindow.windowSize = 5 ∧
      (t.s.fillWindow.stream.bufferEmpty = false ∧
        ∀ seg ∈ (t.next .fillWindow).emitted, seg.header.fin = false) :=
    EndsIn.exists_ok (by decide +kernel)
  have hcap : 100 < 2 ^ 64 := by decide
  obtain ⟨-, -, -, exhausted⟩ :=
    fillWindow_window hcap 1000 ⟨0⟩ (GuardedRun.of_execute admitted done) alone hnext
  refine ⟨t, done, ?_⟩
  rcases exhausted with ⟨seg, hseg, hfin⟩ | full | ⟨empty, -⟩
  · rw [open_.2 seg hseg] at hfin
    cases hfin
  · rw [window] at full
    exact full
  · rw [open_.1] at empty
    cases empty

end Session

end TCPSender

end Sponge
