import Sponge.Library.GuardedRun
import Sponge.TCPConnection

/-!
# The inbound half of a connection

Runs of one endpoint against an arbitrary network: its owner calls what it likes
and any segment may arrive.  The result is about exceptions: the only ones that can
leave `segment_received` come from the reassembler, and

* `segment_never_throws` — none does, as long as no earlier payload started **past**
  the receive window;
* `segment_throws` — the reassembler stores such a payload although it does not
  fit, and a later segment that closes the gap makes it write more than the stream
  can take.

### The condition is on the past

`OpInWindow` is asked of the operations that led to the state, and not of the segment that
arrives next.  That segment may lie anywhere: it is stored, cut or ignored, and none of this
throws as long as nothing stored lies past the window.  What can throw is only the write of
bytes that have become contiguous, and those that are too many were stored earlier.

A connection that listens drops what is no SYN, and a RST never reaches the receiver, so a
payload on such a segment is not asked about.
-/

namespace Sponge

open Runs

namespace TCPReceiver

/-- The payload is empty, would start at the ISN and is dropped, finds the window
closed, or starts inside it. -/
def StartsInWindow (r : TCPReceiver) (seg : TCPSegment) : Prop :=
  match r.isnAfter seg with
  | none => True
  | some isn =>
      seg.payload = [] ∨ dataStart seg = isn ∨ r.windowSize = 0 ∨
        r.streamIndex seg isn ≤ r.curIndex + r.windowSize

instance (r : TCPReceiver) (seg : TCPSegment) : Decidable (r.StartsInWindow seg) :=
  match h : r.isnAfter seg with
  | none => isTrue (by simp [StartsInWindow, h])
  | some isn =>
      decidable_of_iff (seg.payload = [] ∨ dataStart seg = isn ∨ r.windowSize = 0 ∨
        r.streamIndex seg isn ≤ r.curIndex + r.windowSize) (by simp [StartsInWindow, h])

/-- Nothing is stored past the window. -/
structure Contained (r : TCPReceiver) : Prop where
  inv : r.Inv
  inWindow : r.reassembler.InWindow

/-- Nothing is stored at all. -/
theorem contained_new {capacity : ℕ} (h : capacity < 2 ^ 64) : (new capacity).Contained where
  inv := inv_new h
  inWindow := (StreamReassembler.Session.bounded_start h).inWindow

theorem Contained.setError {r : TCPReceiver} (h : r.Contained) : r.setError.Contained :=
  ⟨h.inv.setError, h.inWindow⟩

/-- Reading widens the window. -/
theorem Contained.readOut {r : TCPReceiver} (h : r.Contained) (len : ℕ) :
    (r.readOut len).2.Contained := by
  refine ⟨h.inv.readOut len, ?_⟩
  simp only [TCPReceiver.readOut, h.inv.reassembler.readOut_eq len]
  exact h.inv.reassembler.inWindow_popOutput h.inWindow len

/-- A segment from inside the window stores nothing past it. -/
theorem Contained.segmentReceived {r r' : TCPReceiver} (h : r.Contained) {seg : TCPSegment}
    (range : r.InRange seg) (starts : r.StartsInWindow seg)
    (received : r.segmentReceived seg = .ok r') : r'.Contained := by
  refine ⟨h.inv.segmentReceived range received, ?_⟩
  obtain ⟨hisn, -, ⟨hsame, -⟩ | ⟨isn, hisn', hne, hp⟩⟩ := segmentReceived_cases received
  · exact hsame ▸ h.inWindow
  · obtain ⟨hcur, hlen⟩ := range.bounds hne
    simp only [StartsInWindow, ← hisn, hisn', h.inv.windowSize_eq] at starts
    rcases starts with hempty | hstart | hfull | hin
    · exact h.inv.reassembler.inWindow_push h.inWindow hcur hlen (Or.inl hempty) hp
    · exact absurd hstart hne
    · rw [h.inv.reassembler.push_full hcur hfull] at hp
      exact Except.ok.inj hp ▸ h.inWindow
    · exact h.inv.reassembler.inWindow_push h.inWindow hcur hlen (Or.inr hin) hp

/-- Whatever arrives next, the receiver does not throw. -/
theorem Contained.succeeds {r : TCPReceiver} (h : r.Contained) {seg : TCPSegment}
    (range : r.InRange seg) : ∃ r', r.segmentReceived seg = .ok r' := by
  refine segmentReceived_succeeds fun isn hne => ?_
  obtain ⟨hcur, hlen⟩ := range.bounds hne
  exact h.inv.reassembler.push_succeeds h.inWindow hcur hlen seg.header.fin

end TCPReceiver

namespace TCPConnection

/-- A tick leaves the receiver alone, but for the error flag. -/
theorem tick_receiver (c : TCPConnection) (ms : ℕ) :
    (c.tick ms).receiver = c.receiver ∨ (c.tick ms).receiver = c.receiver.setError := by
  unfold tick
  simp only
  split
  · refine Or.inr ?_
    simp only [setErrors, sendRst_receiver]
  · exact Or.inl rfl

/-- **What an operation can do to the receiver.**  A read, and a segment that is taken, reach the
inbound stream; anything else leaves the receiver alone or sets its error flag. -/
theorem step_receiver {c c' : TCPConnection} {op : Op} (h : c.step op = .ok c') :
    ((∀ len, op ≠ .read len) ∧
      (c'.receiver = c.receiver ∨ c'.receiver = c.receiver.setError)) ∨
    (∃ len, op = .read len ∧ c'.receiver = (c.receiver.readOut len).2) ∨
    ∃ seg, op = .segment seg ∧ seg.header.rst = false ∧
      c.receiver.segmentReceived seg = .ok c'.receiver := by
  cases op with
  | connect => exact Or.inl ⟨by simp, Or.inl (by rw [← Except.ok.inj h, connect_receiver])⟩
  | write data => exact Or.inl ⟨by simp, Or.inl (by rw [← Except.ok.inj h, write_receiver])⟩
  | endInputStream =>
      exact Or.inl ⟨by simp, Or.inl (by rw [← Except.ok.inj h, endInputStream_receiver])⟩
  | tick ms =>
      rw [← Except.ok.inj h]
      exact Or.inl ⟨by simp, c.tick_receiver ms⟩
  | read len =>
      rw [← Except.ok.inj h]
      exact Or.inr (Or.inl ⟨len, rfl, rfl⟩)
  | segment seg =>
      rcases segmentReceived_cases h with rfl | rfl | rfl | ⟨receiver, noRst, hr, rfl⟩
      · exact Or.inl ⟨by simp, Or.inr rfl⟩
      · exact Or.inl ⟨by simp, Or.inl rfl⟩
      · exact Or.inl ⟨by simp, Or.inl rfl⟩
      · refine Or.inr (Or.inr ⟨seg, rfl, noRst, ?_⟩)
        rw [respond_receiver]
        exact hr

/-- Every segment arrives in the 64-bit range. -/
def OpInRange (c : TCPConnection) : Op → Prop
  | .segment seg => c.receiver.InRange seg
  | _ => True

/-- No payload that gets as far as the receiver starts past its window. -/
def OpInWindow (c : TCPConnection) : Op → Prop
  | .segment seg => seg.header.rst = false → c.receiver.StartsInWindow seg
  | _ => True

instance decidableOpInRange (c : TCPConnection) : ∀ op, Decidable (c.OpInRange op)
  | .segment seg => inferInstanceAs (Decidable (c.receiver.InRange seg))
  | .connect | .write _ | .endInputStream | .tick _ | .read _ => inferInstanceAs (Decidable True)

instance decidableOpInWindow (c : TCPConnection) : ∀ op, Decidable (c.OpInWindow op)
  | .segment seg => inferInstanceAs (Decidable (_ → c.receiver.StartsInWindow seg))
  | .connect | .write _ | .endInputStream | .tick _ | .read _ => inferInstanceAs (Decidable True)

/-- An operation keeps the receiver contained. -/
theorem contained_step {c c' : TCPConnection} {op : Op} (contained : c.receiver.Contained)
    (range : c.OpInRange op) (inWindow : c.OpInWindow op) (h : c.step op = .ok c') :
    c'.receiver.Contained := by
  rcases step_receiver h with ⟨-, hsame | herror⟩ | ⟨len, -, hread⟩ | ⟨seg, rfl, noRst, hseg⟩
  · exact hsame ▸ contained
  · exact herror ▸ contained.setError
  · exact hread ▸ contained.readOut len
  · exact contained.segmentReceived range (inWindow noRst) hseg

/-- **No segment crashes the connection**, in any state reached while every payload
so far started inside the receive window, was empty, found it closed, or did not get
as far as the reassembler. -/
theorem segment_never_throws {cfg : TCPConfig} (hcap : cfg.recvCapacity < 2 ^ 64)
    {c : TCPConnection}
    (run : GuardedRun step (fun c op => c.OpInRange op ∧ c.OpInWindow op) (new cfg) c)
    {seg : TCPSegment} (range : c.receiver.InRange seg) :
    ∃ c', c.segmentReceived seg = .ok c' := by
  have contained : c.receiver.Contained :=
    run.invariant (fun c => c.receiver.Contained) (TCPReceiver.contained_new hcap)
      fun _ _ _ contained guard h => contained_step contained guard.1 guard.2 h
  exact segmentReceived_succeeds (contained.succeeds range)

/-- A listening endpoint with room for four bytes. -/
def listener : TCPConnection := new { recvCapacity := 4, fixedIsn := ⟨100⟩ }

theorem segment_never_throws_reordered :
    ∃ c, execute step listener [.segment { header := { syn := true } },
        .segment { header := { seqno := ⟨3⟩ }, payload := [99] }] = .ok c ∧
      ∃ c', c.segmentReceived { header := { seqno := ⟨1⟩ }, payload := [97, 98] } = .ok c' := by
  obtain ⟨c, done, admitted, range⟩ : ∃ c, execute step listener
      [.segment { header := { syn := true } },
        .segment { header := { seqno := ⟨3⟩ }, payload := [99] }] = .ok c ∧
      Admitted step (fun c op => c.OpInRange op ∧ c.OpInWindow op) listener
        [.segment { header := { syn := true } },
          .segment { header := { seqno := ⟨3⟩ }, payload := [99] }] ∧
      c.receiver.InRange { header := { seqno := ⟨1⟩ }, payload := [97, 98] } :=
    EndsIn.exists_ok (by decide +kernel)
  have hcap : 4 < 2 ^ 64 := by decide
  exact ⟨c, done, segment_never_throws hcap (GuardedRun.of_execute admitted done) range⟩

/-- The bytes `c`, `a` and `b` of a stream reach a connection with room for one
byte; `a` is read before `b` arrives. -/
def overfill : List Op :=
  [.segment { header := { syn := true } },
    .segment { header := { seqno := ⟨3⟩ }, payload := [99] },
    .segment { header := { seqno := ⟨1⟩ }, payload := [97] },
    .read 1]

/-- **A segment can crash the connection.**  The byte at index `2` lies past the
window and is stored all the same; once the byte at index `1` arrives, two bytes
are contiguous and only one fits. -/
theorem segment_throws :
    ∃ c, GuardedRun step OpInRange (new { recvCapacity := 1, fixedIsn := ⟨100⟩ }) c ∧
      c.segmentReceived { header := { seqno := ⟨2⟩ }, payload := [98] }
        = .error .shortWrite := by
  obtain ⟨c, done, admitted, thrown⟩ : ∃ c, execute step
      (new { recvCapacity := 1, fixedIsn := ⟨100⟩ }) overfill = .ok c ∧
      Admitted step OpInRange (new { recvCapacity := 1, fixedIsn := ⟨100⟩ }) overfill ∧
      c.segmentReceived { header := { seqno := ⟨2⟩ }, payload := [98] }
        = .error .shortWrite :=
    EndsIn.exists_ok (by decide +kernel)
  exact ⟨c, GuardedRun.of_execute admitted done, thrown⟩

end TCPConnection

end Sponge
