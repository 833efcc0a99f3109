import Sponge.Network.Acknowledgment

/-!
# After the end of a stream

The writer of a stream ends it with `end_input`, "and then no more bytes can be written".
`ByteStream::write` does not look at the flag that `end_input` sets: what keeps bytes out of a
stream that has ended is only that there are none to write, or that there is no room for them
(`ByteStream.Refuses`).  `TCPConnection::write` does not look at it either, so a byte may be
accepted after the FIN has been sent; it is never sent itself.

* `closed_stays_closed` — as long as every write to a stream that has ended is refused for one
  of these two reasons, the stream stays as it is, its end is reached once and for all, and
  every byte that a connection has accepted comes before its FIN.
* `reopened` — one write after the end, to a stream and to a connection.

### Three levels of one statement

That a closed stream stays closed is said of a stream, of a connection and of what a
connection emits, with the same condition at each level and in one theorem.  The condition
is the weakest one: a write after the end is harmless exactly if it accepts nothing, and a
write accepts nothing exactly if it is refused (`write_fst_eq_zero_iff`).

### The number of the FIN

A byte that is accepted after the FIN would have the number of the FIN.  So the last part of
the theorem is stated with numbers: the FIN ends one past the last byte ever accepted,
counting the SYN, and a receiver that has everything up to it has everything.
-/

namespace Sponge

open Runs TCPSender

/-! ## The stream -/

namespace ByteStream

/-- A call on a stream. -/
inductive Call where
  | write (data : List UInt8)
  | endInput
  | setError
  | peekOutput (len : ℕ)
  | popOutput (len : ℕ)
  | read (len : ℕ)
  deriving Repr, DecidableEq

/-- One call on a stream; none of them fails. -/
def call (b : ByteStream) : Call → Except Empty ByteStream
  | .write data => .ok (b.write data).2
  | .endInput => .ok b.endInput
  | .setError => .ok b.setError
  | .peekOutput _ => .ok b
  | .popOutput len => .ok (b.popOutput len)
  | .read len => .ok (b.read len).2

/-- There is nothing to write, or no room for it. -/
def Refuses (b : ByteStream) (data : List UInt8) : Prop :=
  data = [] ∨ b.remainingCapacity = 0

instance (b : ByteStream) (data : List UInt8) : Decidable (b.Refuses data) :=
  inferInstanceAs (Decidable (_ ∨ _))

/-- A stream that has ended refuses what is written. -/
def RefusesOnceEnded (b : ByteStream) : Call → Prop
  | .write data => b.inputEnded = true → b.Refuses data
  | .endInput | .setError | .peekOutput _ | .popOutput _ | .read _ => True

/-- A write accepts nothing exactly if it is refused. -/
theorem write_fst_eq_zero_iff (b : ByteStream) (data : List UInt8) :
    (b.write data).1 = 0 ↔ b.Refuses data := by
  rw [write_fst, Refuses, ← List.length_eq_zero_iff]
  omega

/-- A write that accepts nothing changes nothing. -/
theorem write_snd_of_zero {b : ByteStream} {data : List UInt8} (zero : (b.write data).1 = 0) :
    (b.write data).2 = b := by
  rw [write_fst] at zero
  simp only [write, zero, List.take_zero, List.append_nil, Nat.add_zero]

/-- **A stream that has ended stays as it is**, and once its end is reached it is reached.  The
bytes that are still in it may be read; none is added. -/
structure StaysEnded (b b' : ByteStream) : Prop where
  ended : b.inputEnded = true → b'.inputEnded = true
  written : b.inputEnded = true → b'.bytesWritten = b.bytesWritten
  eof : b.eof = true → b'.eof = true

theorem staysEnded_refl (b : ByteStream) : StaysEnded b b := ⟨id, fun _ => rfl, id⟩

theorem inputEnded_of_eof {b : ByteStream} (h : b.eof = true) : b.inputEnded = true :=
  (Bool.and_eq_true_iff.mp h).1

/-- What is for good stays so. -/
theorem StaysEnded.trans {b b' b'' : ByteStream} (h : StaysEnded b b') (h' : StaysEnded b' b'') :
    StaysEnded b b'' where
  ended := fun ended => h'.ended (h.ended ended)
  written := fun ended => (h'.written (h.ended ended)).trans (h.written ended)
  eof := fun eof => h'.eof (h.eof eof)

/-- Reading does not open a stream. -/
theorem staysEnded_popOutput (b : ByteStream) (len : ℕ) : StaysEnded b (b.popOutput len) where
  ended := id
  written := fun _ => rfl
  eof := by
    intro eof
    obtain ⟨ended, empty⟩ := Bool.and_eq_true_iff.mp eof
    have empty : b.curCap = 0 := beq_iff_eq.mp empty
    refine Bool.and_eq_true_iff.mpr ⟨ended, beq_iff_eq.mpr ?_⟩
    show b.curCap - min len b.curCap = 0
    rw [empty, Nat.zero_sub]

/-- One call. -/
theorem staysEnded_call {b b' : ByteStream} {op : Call} (refused : b.RefusesOnceEnded op)
    (called : b.call op = .ok b') : StaysEnded b b' := by
  cases op with
  | write data =>
      obtain rfl := Except.ok.inj called
      have same (ended : b.inputEnded = true) : (b.write data).2 = b :=
        write_snd_of_zero ((b.write_fst_eq_zero_iff data).mpr (refused ended))
      refine ⟨fun ended => ?_, fun ended => ?_, fun eof => ?_⟩
      · rw [same ended]; exact ended
      · rw [same ended]
      · rw [same (inputEnded_of_eof eof)]; exact eof
  | endInput =>
      obtain rfl := Except.ok.inj called
      refine ⟨fun _ => rfl, fun _ => rfl, fun eof => ?_⟩
      exact Bool.and_eq_true_iff.mpr ⟨rfl, (Bool.and_eq_true_iff.mp eof).2⟩
  | setError =>
      obtain rfl := Except.ok.inj called
      exact ⟨id, fun _ => rfl, id⟩
  | peekOutput len =>
      obtain rfl := Except.ok.inj called
      exact staysEnded_refl b
  | popOutput len =>
      obtain rfl := Except.ok.inj called
      exact staysEnded_popOutput b len
  | read len =>
      obtain rfl := Except.ok.inj called
      exact staysEnded_popOutput b _

theorem staysEnded_of_run {b b' : ByteStream} (run : GuardedRun call RefusesOnceEnded b b') :
    StaysEnded b b' :=
  run.progress StaysEnded staysEnded_refl StaysEnded.trans fun _ _ _ => staysEnded_call

end ByteStream

/-! ## The connection -/

namespace TCPSender

theorem fillStep_inputIsEnd (window : ℕ) (s : TCPSender) (seg : TCPSegment) :
    (s.fillStep window seg).1.stream.inputIsEnd = s.stream.inputIsEnd := by
  simp only [fillStep, emit_stream, finish_stream]
  show (s.stamp seg).1.stream.inputIsEnd = s.stream.inputIsEnd
  rw [stamp_stream]

/-- By induction over the passes. -/
theorem fillLoop_inputIsEnd (window : ℕ) (s : TCPSender) (seg : TCPSegment) :
    (fillLoop window s seg).stream.inputIsEnd = s.stream.inputIsEnd := by
  induction s, seg using fillLoop.induct window with
  | case1 s seg ended => rw [fillLoop, if_pos ended]
  | case2 s seg running more ih =>
      rw [fillLoop, if_neg running, dif_pos more, ih, fillStep_inputIsEnd]
  | case3 s seg running done =>
      rw [fillLoop, if_neg running, dif_neg done, fillStep_inputIsEnd]

/-- Filling the window does not end the stream, nor open it. -/
theorem fillWindow_inputIsEnd (s : TCPSender) :
    s.fillWindow.stream.inputIsEnd = s.stream.inputIsEnd := by
  unfold fillWindow
  split
  · rfl
  · exact fillLoop_inputIsEnd _ s {}

end TCPSender

namespace TCPConnection

/-- The outbound stream of a connection has ended. -/
def OutEnded (c : TCPConnection) : Prop := c.sender.stream.inputEnded = true

variable {c c' : TCPConnection} {op : Op}

theorem outEnded_fill {s : TCPSender} (hstream : c.sender.stream = s.fillWindow.stream)
    (ended : s.stream.inputIsEnd = true) : c.OutEnded := by
  unfold OutEnded
  rw [hstream]
  exact (fillWindow_inputIsEnd s).trans ended

theorem OutEnded.sendRst (h : c.OutEnded) : c.sendRstSegmenet.OutEnded := by
  unfold sendRstSegmenet
  simp only
  split <;> exact h

/-- Answering a segment reads from the stream and does not open it. -/
theorem OutEnded.respond (h : c.OutEnded) (seg : TCPSegment) : (c.respond seg).OutEnded := by
  refine respond_rule (P := OutEnded) (outEnded_fill rfl ?_) (fun _ h => h) fun _ h => h
  rw [(acknowledge_effect c.sender seg).2]
  exact h

/-- **No operation opens the stream again.**  A write is no exception: the stream takes the bytes
that are written to it after its end, if the owner tries, but it does not forget the end. -/
theorem OutEnded.step (h : c.OutEnded) (stepped : c.step op = .ok c') : c'.OutEnded := by
  cases op with
  | connect =>
      obtain rfl := Except.ok.inj stepped
      exact outEnded_fill (s := c.sender) rfl h
  | write data =>
      obtain rfl := Except.ok.inj stepped
      exact outEnded_fill (s := { c.sender with stream := (c.sender.stream.write data).2 }) rfl h
  | endInputStream =>
      obtain rfl := Except.ok.inj stepped
      have filled : OutEnded { c with
          sender := { c.sender with stream := c.sender.stream.endInput }.fillWindow } :=
        outEnded_fill rfl rfl
      unfold endInputStream
      simp only
      split
      · exact filled
      · split <;> exact filled
  | tick ms =>
      obtain rfl := Except.ok.inj stepped
      have ticked : OutEnded { c with
          timeSinceLastSegReceived := add64 c.timeSinceLastSegReceived ms
          sender := c.sender.tick ms } := by
        obtain ⟨-, -, -, frame⟩ := c.sender.tick_effect ms
        show (c.sender.tick ms).stream.inputIsEnd = true
        rw [frame]
        exact h
      unfold TCPConnection.tick
      simp only
      split
      · exact ticked.sendRst
      · exact ticked
  | read len =>
      obtain rfl := Except.ok.inj stepped
      exact h
  | segment seg =>
      rcases segmentReceived_cases stepped with rfl | rfl | rfl | ⟨receiver, -, -, rfl⟩
      · exact h
      · exact h
      · exact h
      · exact OutEnded.respond (c := { c with timeSinceLastSegReceived := 0, receiver := receiver })
          h seg

/-- A stream that has ended refuses what is written to the connection. -/
def RefusesOnceEnded (c : TCPConnection) : Op → Prop
  | .write data => c.sender.stream.inputEnded = true → c.sender.stream.Refuses data
  | .connect | .endInputStream | .tick _ | .read _ | .segment _ => True

instance decidableRefusesOnceEnded (c : TCPConnection) : ∀ op, Decidable (c.RefusesOnceEnded op)
  | .write _ => inferInstanceAs (Decidable (_ → _))
  | .connect | .endInputStream | .tick _ | .read _ | .segment _ =>
      inferInstanceAs (Decidable True)

/-- What is refused is not accepted. -/
theorem RefusesOnceEnded.acceptedBy (h : c.RefusesOnceEnded op) (ended : c.OutEnded) :
    c.acceptedBy op = [] := by
  cases op with
  | write data =>
      have zero : (c.write data).1 = 0 :=
        (c.sender.stream.write_fst_eq_zero_iff data).mpr (h ended)
      rw [TCPConnection.acceptedBy, zero, List.take_zero]
  | connect => rfl
  | endInputStream => rfl
  | tick ms => rfl
  | read len => rfl
  | segment seg => rfl

end TCPConnection

namespace Host

variable {h h' : Host} {op : TCPConnection.Op}

/-- **Nothing is accepted after the end**, in whatever state the end was. -/
theorem accepted_of_outEnded
    (run : GuardedRun act (fun h op => h.conn.RefusesOnceEnded op) h h')
    (ended : h.conn.OutEnded) : h'.accepted = h.accepted := by
  refine (run.invariant (fun h' => h'.conn.OutEnded ∧ h'.accepted = h.accepted) ⟨ended, rfl⟩ ?_).2
  rintro h₁ op h₂ ⟨ended₁, same⟩ refused acted
  obtain ⟨stepped, haccepted, -⟩ := act_cases acted
  refine ⟨ended₁.step stepped, ?_⟩
  rw [haccepted, refused.acceptedBy ended₁, List.append_nil, same]

/-- What a host has emitted, and what it knows of it.  Together these say that the FIN stands at
the end of all that was accepted, and keeps standing there. -/
structure Ending (h : Host) : Prop where
  outgoing : h.Outgoing
  settled : h.Settled

theorem ending_new {cfg : TCPConfig} (hcap : cfg.sendCapacity < 2 ^ 64) : (new cfg).Ending :=
  ⟨outgoing_new hcap, settled_new cfg⟩

/-- One operation. -/
theorem Ending.act (c : h.Ending) (hnext : h.conn.sender.nextSeqno < 2 ^ 64)
    (refused : h.conn.RefusesOnceEnded op) (acted : h.act op = .ok h') : h'.Ending where
  outgoing := c.outgoing.act hnext acted
  settled := by
    refine c.settled.act c.outgoing hnext (fun sent => ?_) acted
    exact refused.acceptedBy (c.outgoing.outbound.sound.inv.closed sent)

/-- A FIN is sent after all that was accepted. -/
theorem Ending.fin_last (c : h.Ending) {seg : TCPSegment}
    (genuine : Genuine h.accepted h.conn.sender seg) (fin : seg.header.fin = true) :
    ∃ a, Carried h.accepted h.conn.sender a seg ∧
      a + seg.lengthInSequenceSpace = h.accepted.length + 2 := by
  rcases genuine with empty | ⟨a, carried⟩
  · unfold TCPSegment.lengthInSequenceSpace at empty
    rw [fin] at empty
    simp at empty
  · obtain ⟨sent, last⟩ := carried.fin fin
    exact ⟨a, carried, last.trans (c.settled.complete sent)⟩

/-- **A closed stream stays closed.**  A write to a stream that has ended returns zero and
changes nothing exactly if there is nothing to write or no room for it.  If this holds of
every write after the end, `bytes_written` does not change any more and `eof` is true forever
once it is true; a connection accepts nothing more; and the number of its FIN is the one after
that of the last byte it has ever accepted. -/
theorem closed_stays_closed {cfg : TCPConfig} (hcap : cfg.sendCapacity < 2 ^ 64) :
    (∀ (b : ByteStream) (data : List UInt8), b.inputEnded = true →
      (((b.write data).1 = 0 ∧ (b.write data).2 = b) ↔ b.Refuses data)) ∧
    (∀ b b' : ByteStream, GuardedRun ByteStream.call ByteStream.RefusesOnceEnded b b' →
      b.inputEnded = true →
        b'.bytesWritten = b.bytesWritten ∧ (b.eof = true → b'.eof = true)) ∧
    (∀ h h' : Host, GuardedRun act (fun h op => h.conn.RefusesOnceEnded op) h h' →
      h.conn.sender.stream.inputEnded = true → h'.accepted = h.accepted) ∧
    ∀ h : Host, GuardedRun act
        (fun h op => h.conn.sender.nextSeqno < 2 ^ 64 ∧ h.conn.RefusesOnceEnded op) (new cfg) h →
      ∀ seg ∈ h.conn.segmentsOut ++ h.conn.sender.segmentsOut, seg.header.fin = true →
        ∃ a, Carried h.accepted h.conn.sender a seg ∧
          a + seg.lengthInSequenceSpace = h.accepted.length + 2 := by
  refine ⟨fun b data _ => ⟨fun unchanged => ?_, fun refused => ?_⟩, fun b b' run ended => ?_,
    fun h h' run ended => accepted_of_outEnded run ended, fun h run seg hseg fin => ?_⟩
  · exact (b.write_fst_eq_zero_iff data).mp unchanged.1
  · have zero := (b.write_fst_eq_zero_iff data).mpr refused
    exact ⟨zero, ByteStream.write_snd_of_zero zero⟩
  · have stays := ByteStream.staysEnded_of_run run
    exact ⟨stays.written ended, stays.eof⟩
  · have ending : h.Ending :=
      run.invariant Ending (ending_new hcap) fun _ _ _ c guard acted =>
        c.act guard.1 guard.2 acted
    refine ending.fin_last ?_ fin
    rcases List.mem_append.mp hseg with sent | queued
    · exact ending.outgoing.genuine seg (List.mem_append_right _ sent)
    · exact (ending.outgoing.outbound.sound.queued seg queued).1

/-- A byte is accepted and sent, and the FIN after it; a write of nothing follows. -/
def openWriteClose : List TCPConnection.Op :=
  [.connect,
    .segment { header := { seqno := ⟨100⟩, syn := true, ack := true, ackno := ⟨1⟩, win := 1000 } },
    .write [97], .endInputStream, .write []]

theorem closed_stays_closed_openWriteClose :
    ∃ h, execute act (new { fixedIsn := ⟨0⟩ }) openWriteClose = .ok h ∧ h.accepted = [97] ∧
      ∃ seg ∈ h.conn.segmentsOut, seg.header.fin = true ∧
        ∃ a, Carried [97] h.conn.sender a seg ∧ a + seg.lengthInSequenceSpace = 3 := by
  obtain ⟨h, done, admitted, haccepted, seg, hseg, fin⟩ : ∃ h,
      execute act (new { fixedIsn := ⟨0⟩ }) openWriteClose = .ok h ∧
      Admitted act
        (fun h op => h.conn.sender.nextSeqno < 2 ^ 64 ∧ h.conn.RefusesOnceEnded op)
        (new { fixedIsn := ⟨0⟩ }) openWriteClose ∧
      h.accepted = [97] ∧ ∃ seg ∈ h.conn.segmentsOut, seg.header.fin = true :=
    EndsIn.exists_ok (by decide +kernel)
  have hcap : 64000 < 2 ^ 64 := by decide
  have placed := (closed_stays_closed hcap).2.2.2 h (GuardedRun.of_execute admitted done) seg
    (List.mem_append_left _ hseg) fin
  rw [haccepted] at placed
  exact ⟨h, done, haccepted, seg, hseg, fin, placed⟩

/-- A stream at its end is written to, and is not at its end any more.  A connection accepts a
byte after its FIN, which has taken the sequence number of the byte; the byte waits in the
stream, and `_next_seqno` says that there is nothing more to send. -/
theorem reopened :
    ((ByteStream.new 8).endInput.eof = true ∧ ((ByteStream.new 8).endInput.write [97]).1 = 1 ∧
      ((ByteStream.new 8).endInput.write [97]).2.bytesWritten = 1 ∧
      ((ByteStream.new 8).endInput.write [97]).2.eof = false) ∧
    EndsIn (execute act (new { fixedIsn := ⟨0⟩ })
      [.connect,
        .segment
          { header := { seqno := ⟨100⟩, syn := true, ack := true, ackno := ⟨1⟩, win := 1000 } },
        .endInputStream, .write [97]]) fun h =>
      h.accepted = [97] ∧ h.conn.sender.stream.str = [97] ∧
        (∃ seg ∈ h.conn.segmentsOut, seg.header.fin = true ∧ seg.header.seqno = ⟨1⟩ ∧
          seg.payload = []) ∧
        h.conn.sender.nextSeqno = 2 := by
  decide +kernel

end Host

end Sponge
