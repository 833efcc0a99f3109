import Sponge.StreamReassembler.Tidy
import Sponge.TCPReceiver

/-!
# The receive window

What the window does over whole runs of a receiver: segments with any flags,
sequence numbers and payloads, and reads, as long as no call throws.

* `window_edge_mono` — the write index, the end of the stream and both right edges
  of the window (the one held and the one a 16-bit header field can announce) never
  go back, and `window_size()` never underflows.
* `outside_ignored_iff` — which segments that lie wholly outside the window are
  ignored.  Those that are not (`Intrudes`) bring the FIN flag from below the window
  or an empty segment at its edge, or data from past the edge, where the clipping of
  `push_substring` underflows.  *Ignored* includes what later segments do:
  `Equivalent` receivers answer every later run alike (`Equivalent.observe_execute`).

### What *ignored* has to mean

That the four values an owner can ask for are the same afterwards is too weak: a segment
could be stored out of sight and come out later.  That the states are equal is too strong:
an empty node may be left behind.  `Ignored` asks for the values, for equal tidy forms, and
for the same answers after every later run; the last follows from the second
(`Equivalent.ignored`) and is stated because it is what can be observed.

### The three regions

Below the window, from the edge on with nothing left after the cut, and past the edge with
data.  The reassembler treats them differently, and each has one lemma that says when a push
is unseen and one that says when the segment intrudes; `Inv.equivalent_iff` puts them
together.  A segment of no length is outside wherever it lies, which is why the length is a
premise.

`Counted` is weaker than the receiver's invariant and is kept without any condition on what
arrives.  So the window theorem holds for a hostile peer, as long as nothing has thrown.
-/

namespace Sponge

open Chunks Runs

namespace TCPReceiver

/-! ## The right edge -/

/-- **The counters in step**: the reassembler's index, the stream's own counters
and the receiver's copy of the capacity.  Unlike `Inv` it asks nothing of what is
stored, so no range condition on the indices is needed to keep it. -/
structure Counted (r : TCPReceiver) : Prop where
  output : r.streamOut.Inv
  capacity_eq : r.streamOut.capacity = r.capacity
  written : r.streamOut.bytesWritten = r.curIndex

/-- The counters start in step. -/
theorem counted_new {capacity : ℕ} (h : capacity < 2 ^ 64) : (new capacity).Counted :=
  ⟨ByteStream.inv_new h, rfl, rfl⟩

/-- The buffer fits the capacity. -/
theorem Counted.bufferSize_le {r : TCPReceiver} (counted : r.Counted) :
    r.streamOut.bufferSize ≤ r.capacity := by
  rw [counted.output.bufferSize_eq, ← counted.capacity_eq]
  exact counted.output.le_capacity

/-- The subtraction in `window_size()` never underflows. -/
theorem Counted.windowSize_eq {r : TCPReceiver} (counted : r.Counted) :
    r.windowSize = r.capacity - r.streamOut.bufferSize :=
  sub64_of_le counted.bufferSize_le

/-- The right edge of the window is the number of bytes read plus the capacity. -/
theorem Counted.edge_eq {r : TCPReceiver} (counted : r.Counted) :
    r.curIndex + r.windowSize = r.streamOut.bytesRead + r.capacity := by
  have fits := counted.bufferSize_le
  have balance := counted.output.balance
  have written := counted.written
  rw [← counted.output.bufferSize_eq] at balance
  rw [counted.windowSize_eq]
  omega

/-- What no operation takes back.  The write index is the lower edge of the window, and the bytes
read plus the capacity are the upper one, so neither edge moves back. -/
structure Forward (r r' : TCPReceiver) : Prop where
  capacity_eq : r'.capacity = r.capacity
  curIndex_le : r.curIndex ≤ r'.curIndex
  bytesRead_le : r.streamOut.bytesRead ≤ r'.streamOut.bytesRead
  ended : r.streamOut.inputEnded = true → r'.streamOut.inputEnded = true

theorem forward_refl (r : TCPReceiver) : Forward r r := ⟨rfl, le_rfl, le_rfl, id⟩

/-- What two runs do not take back, both together do not. -/
theorem Forward.trans {r r' r'' : TCPReceiver} (h : Forward r r') (h' : Forward r' r'') :
    Forward r r'' where
  capacity_eq := h'.capacity_eq.trans h.capacity_eq
  curIndex_le := h.curIndex_le.trans h'.curIndex_le
  bytesRead_le := h.bytesRead_le.trans h'.bytesRead_le
  ended := h'.ended ∘ h.ended

theorem readOut_streamOut (r : TCPReceiver) (len : ℕ) :
    (r.readOut len).2.streamOut = r.streamOut.popOutput (min len r.streamOut.bufferSize) := rfl

/-- Neither a segment nor a read takes anything back. -/
theorem forward_of_step {r r' : TCPReceiver} {op : Op} (h : r.step op = .ok r') :
    Forward r r' := by
  cases op with
  | segment seg =>
      have grown := segmentReceived_grown h
      exact ⟨(segmentReceived_cases h).2.1, grown.curIndex_le, grown.bytesRead.ge, grown.ended⟩
  | read len =>
      cases h
      refine ⟨rfl, le_rfl, ?_, id⟩
      rw [readOut_streamOut, ByteStream.popOutput_bytesRead]
      exact Nat.le_add_right _ _

/-- A segment moves index and counters together; a read moves only the reader. -/
theorem Counted.step {r r' : TCPReceiver} {op : Op} (counted : r.Counted)
    (h : r.step op = .ok r') : r'.Counted := by
  cases op with
  | segment seg =>
      have grown := segmentReceived_grown h
      obtain ⟨-, hcap, ⟨hsame, -⟩ | ⟨isn, -, -, pushed⟩⟩ := segmentReceived_cases h
      · refine ⟨?_, ?_, ?_⟩
        · rw [streamOut, hsame]
          exact counted.output
        · rw [streamOut, hsame, hcap]
          exact counted.capacity_eq
        · rw [streamOut, curIndex, hsame]
          exact counted.written
      · obtain ⟨output, written⟩ :=
          StreamReassembler.pushSubstring_counted pushed counted.output counted.written
        refine ⟨output, ?_, written⟩
        rw [streamOut, grown.capacity, hcap]
        exact counted.capacity_eq
  | read len =>
      cases h
      exact ⟨counted.output.popOutput _, counted.capacity_eq, counted.written⟩

/-- Any segments and any reads. -/
def Anything (_ : TCPReceiver) (_ : Op) : Prop := True

instance (r : TCPReceiver) (op : Op) : Decidable (Anything r op) :=
  inferInstanceAs (Decidable True)

theorem counted_of_run {capacity : ℕ} (hcap : capacity < 2 ^ 64) {r : TCPReceiver}
    (run : GuardedRun step Anything (new capacity) r) : r.Counted :=
  run.invariant Counted (counted_new hcap) fun _ _ _ counted _ h => counted.step h

theorem forward_of_run {r₀ r : TCPReceiver} (run : GuardedRun step Anything r₀ r) :
    Forward r₀ r :=
  run.progress Forward forward_refl (fun h h' => h.trans h')
    fun _ _ _ _ h => forward_of_step h

/-- **The window never shrinks from the right.**  Whatever has arrived and been read
before `r₀`, and whatever arrives and is read afterwards, neither edge moves back. -/
theorem window_edge_mono {capacity : ℕ} (hcap : capacity < 2 ^ 64) {r₀ r : TCPReceiver}
    (reached : GuardedRun step Anything (new capacity) r₀)
    (run : GuardedRun step Anything r₀ r) :
    (r.curIndex = r.streamOut.bytesWritten ∧ r.streamOut.bufferSize ≤ capacity ∧
      r.windowSize = capacity - r.streamOut.bufferSize ∧
      r.curIndex + r.windowSize = r.streamOut.bytesRead + capacity) ∧
    r₀.curIndex ≤ r.curIndex ∧
    (r₀.streamOut.inputEnded = true → r.streamOut.inputEnded = true) ∧
    r₀.curIndex + r₀.windowSize ≤ r.curIndex + r.windowSize ∧
    r₀.curIndex + min r₀.windowSize 65535 ≤ r.curIndex + min r.windowSize 65535 := by
  have before := counted_of_run hcap reached
  have counted : r.Counted := run.invariant Counted before fun _ _ _ held _ h => held.step h
  have forward := forward_of_run run
  have start := forward_of_run reached
  have cap₀ : r₀.capacity = capacity := start.capacity_eq
  have cap : r.capacity = capacity := forward.capacity_eq.trans cap₀
  have edge₀ := before.edge_eq
  have edge := counted.edge_eq
  have read := forward.bytesRead_le
  have index := forward.curIndex_le
  have fits := counted.bufferSize_le
  have window := counted.windowSize_eq
  rw [cap₀] at edge₀
  rw [cap] at edge fits window
  refine ⟨⟨counted.written.symm, fits, window, edge⟩, index, forward.ended, ?_, ?_⟩
  · omega
  · omega

/-- Two bytes arrive out of order, then the first one with other contents for the
second, then one byte is read. -/
theorem window_edge_mono_overlap :
    ∃ r₀ r, execute step (new 4)
        [.segment { header := { syn := true } },
          .segment { header := { seqno := ⟨2⟩ }, payload := [98, 99] }] = .ok r₀ ∧
      execute step r₀
        [.segment { header := { seqno := ⟨1⟩, fin := true }, payload := [97, 97] },
          .read 1] = .ok r ∧
      r.curIndex = 3 ∧ r₀.curIndex + r₀.windowSize ≤ r.curIndex + r.windowSize := by
  have hcap : 4 < 2 ^ 64 := by decide
  obtain ⟨r₀, done₀, r, done, index⟩ : ∃ r₀, execute step (new 4)
      [.segment { header := { syn := true } },
        .segment { header := { seqno := ⟨2⟩ }, payload := [98, 99] }] = .ok r₀ ∧
      ∃ r, execute step r₀
        [.segment { header := { seqno := ⟨1⟩, fin := true }, payload := [97, 97] },
          .read 1] = .ok r ∧ r.curIndex = 3 := ⟨_, rfl, _, rfl, rfl⟩
  have anything : ∀ s ops, Admitted step Anything s ops := admitted_of_forall fun _ _ => trivial
  have edges := window_edge_mono hcap (GuardedRun.of_execute (anything _ _) done₀)
    (GuardedRun.of_execute (anything _ _) done)
  exact ⟨r₀, r, done₀, done, index, edges.2.2.2.1⟩

/-! ## Equivalent receivers -/

/-- The receiver without the nodes that hold nothing. -/
def tidy (r : TCPReceiver) : TCPReceiver := { r with reassembler := r.reassembler.tidy }

/-- **The internal states are equivalent**: they differ in empty nodes only.  Equality would be
too much to ask, since a segment without payload can leave an empty node behind. -/
def Equivalent (r r' : TCPReceiver) : Prop := r.tidy = r'.tidy

instance (r r' : TCPReceiver) : Decidable (Equivalent r r') :=
  inferInstanceAs (Decidable (_ = _))

/-- What the owner of a receiver can ask for: `ackno()`, `window_size()`,
`unassembled_bytes()` and the stream with its contents and its end. -/
def observe (r : TCPReceiver) : Option WrappingInt32 × ℕ × ℕ × ByteStream :=
  (r.ackno, r.windowSize, r.unassembledBytes, r.streamOut)

/-- Empty nodes cannot be observed. -/
theorem observe_tidy (r : TCPReceiver) : r.tidy.observe = r.observe := by
  have stored : r.tidy.unassembledBytes = r.unassembledBytes :=
    StreamReassembler.tidy_unassembledBytes r.reassembler
  rw [observe, stored]
  rfl

/-- Equivalent receivers look alike. -/
theorem Equivalent.observe_eq {r r' : TCPReceiver} (same : Equivalent r r') :
    r'.observe = r.observe := by
  rw [← observe_tidy r', ← observe_tidy r, same]

theorem Equivalent.curIndex_eq {r r' : TCPReceiver} (same : Equivalent r r') :
    r'.curIndex = r.curIndex := by
  have hsame : r.tidy = r'.tidy := same
  exact (congrArg curIndex hsame).symm

theorem Equivalent.opInRange {r r' : TCPReceiver} (same : Equivalent r r') {op : Op}
    (range : r.OpInRange op) : r'.OpInRange op := by
  cases op with
  | read len => trivial
  | segment seg => exact ⟨same.curIndex_eq ▸ range.1, range.2⟩

/-- One operation does not see the empty nodes. -/
theorem Inv.step_tidy {r : TCPReceiver} (inv : r.Inv) {op : Op} (range : r.OpInRange op) :
    (r.step op).map TCPReceiver.tidy = (r.tidy.step op).map TCPReceiver.tidy := by
  cases op with
  | read len =>
      refine congrArg Except.ok ?_
      simp only [TCPReceiver.readOut, TCPReceiver.tidy, StreamReassembler.readOut_tidy,
        StreamReassembler.tidy_tidy]
  | segment seg =>
      simp only [TCPReceiver.step, TCPReceiver.segmentReceived]
      have hafter : r.tidy.isnAfter seg = r.isnAfter seg := rfl
      rw [hafter]
      cases r.isnAfter seg with
      | none =>
          refine congrArg Except.ok ?_
          simp only [TCPReceiver.tidy, StreamReassembler.tidy_tidy]
      | some isn =>
          simp only
          split
          · refine congrArg Except.ok ?_
            simp only [TCPReceiver.tidy, StreamReassembler.tidy_tidy]
          · next hne =>
            obtain ⟨hcur, hlen⟩ := range.bounds fun heq => hne heq.symm
            have pushed := inv.reassembler.pushSubstring_tidy hcur hlen seg.header.fin
            have hindex : r.tidy.streamIndex seg isn = r.streamIndex seg isn := rfl
            have hre : r.tidy.reassembler = r.reassembler.tidy := rfl
            rw [hindex, hre]
            revert pushed
            cases r.reassembler.pushSubstring seg.payload (r.streamIndex seg isn)
                seg.header.fin <;>
              cases r.reassembler.tidy.pushSubstring seg.payload (r.streamIndex seg isn)
                seg.header.fin <;>
              simp_all [Except.map, TCPReceiver.tidy]

/-- Equivalent receivers stay so: both fail alike, or both succeed and are equivalent again. -/
theorem Equivalent.step_eq {r r' : TCPReceiver} (same : Equivalent r r') (inv : r.Inv)
    (inv' : r'.Inv) {op : Op} (range : r.OpInRange op) :
    (r.step op).map tidy = (r'.step op).map tidy := by
  have hsame : r.tidy = r'.tidy := same
  rw [inv.step_tidy range, hsame, ← inv'.step_tidy (same.opInRange range)]

/-- **Equivalent receivers answer every later run alike**: both runs fail, with the
same exception, or both succeed and nothing tells the results apart. -/
theorem Equivalent.observe_execute {r r' : TCPReceiver} (same : Equivalent r r')
    (inv : r.Inv) (inv' : r'.Inv) {ops : List Op} (admitted : Admitted step OpInRange r ops) :
    (execute step r' ops).map observe = (execute step r ops).map observe := by
  induction ops generalizing r r' with
  | nil => exact congrArg Except.ok same.observe_eq
  | cons op ops ih =>
      obtain ⟨range, later⟩ := admitted
      have stepped := same.step_eq inv inv' range
      simp only [execute]
      cases h : r.step op with
      | error fault =>
          rw [h] at stepped
          cases h' : r'.step op with
          | error fault' =>
              rw [h'] at stepped
              exact congrArg Except.error (Except.error.inj stepped).symm
          | ok s' => rw [h'] at stepped; cases stepped
      | ok s =>
          rw [h] at stepped later
          cases h' : r'.step op with
          | error fault' => rw [h'] at stepped; cases stepped
          | ok s' =>
              rw [h'] at stepped
              exact ih (Except.ok.inj stepped) (inv.step range h)
                (inv'.step (same.opInRange range) h') later

/-! ## Segments outside the window -/

/-- The absolute sequence number of the first number a segment occupies. -/
def absoluteSeqno (r : TCPReceiver) (seg : TCPSegment) (isn : WrappingInt32) : ℕ :=
  unwrap seg.header.seqno isn r.curIndex

/-- No number the segment occupies lies in the window. -/
def Outside (r : TCPReceiver) (seg : TCPSegment) (isn : WrappingInt32) : Prop :=
  ∀ x, r.absoluteSeqno seg isn ≤ x →
    x < r.absoluteSeqno seg isn + seg.lengthInSequenceSpace →
    x < r.curIndex + 1 ∨ r.curIndex + 1 + r.windowSize ≤ x

/-- What ends below the window is outside. -/
theorem outside_of_below {r : TCPReceiver} {seg : TCPSegment} {isn : WrappingInt32}
    (below : r.absoluteSeqno seg isn + seg.lengthInSequenceSpace ≤ r.curIndex + 1) :
    r.Outside seg isn :=
  fun _ _ upper => Or.inl (lt_of_lt_of_le upper below)

/-- What starts past the edge is outside. -/
theorem outside_of_past {r : TCPReceiver} {seg : TCPSegment} {isn : WrappingInt32}
    (past : r.curIndex + 1 + r.windowSize ≤ r.absoluteSeqno seg isn) : r.Outside seg isn :=
  fun _ lower _ => Or.inr (past.trans lower)

/-- Some node of the list already holds the payload. -/
def HeldByNode (r : TCPReceiver) (seg : TCPSegment) (isn : WrappingInt32) : Prop :=
  ∃ n ∈ r.reassembler.list, n.beg ≤ r.absoluteSeqno seg isn - 1 ∧
    r.absoluteSeqno seg isn - 1 + seg.payload.length ≤ n.beg + n.s.length

instance (r : TCPReceiver) (seg : TCPSegment) (isn : WrappingInt32) :
    Decidable (r.HeldByNode seg isn) :=
  inferInstanceAs (Decidable (∃ n ∈ _, _))

/-- **The segment leaves a trace although it lies outside the window**: the window is
open, the filter for invalid sequence numbers lets it through, and it announces an end
that was not known from below the window or bare at its edge, or it carries data from
past the edge that are not stored yet. -/
def Intrudes (r : TCPReceiver) (seg : TCPSegment) (isn : WrappingInt32) : Prop :=
  0 < r.windowSize ∧ seg.header.seqno ≠ isn ∧
    ((r.absoluteSeqno seg isn ≤ r.curIndex ∧ seg.header.fin = true ∧
        r.reassembler.eof = false) ∨
      (r.absoluteSeqno seg isn = r.curIndex + 1 + r.windowSize ∧ seg.payload = [] ∧
        seg.header.fin = true ∧ r.reassembler.eof = false) ∨
      (r.curIndex + 1 + r.windowSize < r.absoluteSeqno seg isn ∧ seg.payload ≠ [] ∧
        ¬ r.HeldByNode seg isn))

instance (r : TCPReceiver) (seg : TCPSegment) (isn : WrappingInt32) :
    Decidable (r.Intrudes seg isn) :=
  inferInstanceAs (Decidable (_ ∧ _))

/-- Nothing has changed, now or in the effect of every later segment and read. -/
structure Ignored (r r' : TCPReceiver) : Prop where
  ackno : r'.ackno = r.ackno
  windowSize : r'.windowSize = r.windowSize
  unassembledBytes : r'.unassembledBytes = r.unassembledBytes
  /-- The contents of the stream and `input_ended()`. -/
  streamOut : r'.streamOut = r.streamOut
  equivalent : Equivalent r r'
  later : ∀ ops, Admitted step OpInRange r ops →
    (execute step r' ops).map observe = (execute step r ops).map observe

theorem Equivalent.ignored {r r' : TCPReceiver} (same : Equivalent r r') (inv : r.Inv)
    (inv' : r'.Inv) : Ignored r r' where
  ackno := congrArg (fun o => o.1) same.observe_eq
  windowSize := congrArg (fun o => o.2.1) same.observe_eq
  unassembledBytes := congrArg (fun o => o.2.2.1) same.observe_eq
  streamOut := congrArg (fun o => o.2.2.2) same.observe_eq
  equivalent := same
  later := fun _ admitted => same.observe_execute inv inv' admitted

/-- In every reachable state a known end of an empty store has been reported. -/
theorem settled_of_run {capacity : ℕ} {r : TCPReceiver}
    (run : GuardedRun step OpInRange (new capacity) r) : r.reassembler.Settled := by
  refine run.invariant (fun r => r.reassembler.Settled) (fun known => by cases known) ?_
  intro r op r' settled _ h
  cases op with
  | segment seg =>
      obtain ⟨-, -, ⟨hsame, -⟩ | ⟨isn, -, -, pushed⟩⟩ := segmentReceived_cases h
      · rw [hsame]
        exact settled
      · exact StreamReassembler.pushSubstring_settled settled pushed
  | read len =>
      cases h
      exact settled

section Outside

variable {r : TCPReceiver} {seg : TCPSegment} {isn : WrappingInt32}

/-- The payload of a segment without SYN starts one index below its sequence number. -/
theorem InRange.streamIndex_eq (range : r.InRange seg) (noSyn : seg.header.syn = false)
    (passed : seg.header.seqno ≠ isn) :
    0 < r.absoluteSeqno seg isn ∧ r.streamIndex seg isn = r.absoluteSeqno seg isn - 1 := by
  have positive : 0 < r.absoluteSeqno seg isn :=
    unwrap_pos (by have := range.1; omega) passed
  refine ⟨positive, ?_⟩
  rw [streamIndex, dataStart, noSyn]
  exact sub64_of_le positive

/-- A segment without SYN hands its payload to the reassembler, one index below its
sequence number, unless the filter strikes. -/
theorem segmentReceived_of_isn (hisn : r.isn = some isn) (noSyn : seg.header.syn = false)
    (range : r.InRange seg) :
    r.segmentReceived seg =
      if seg.header.seqno = isn then .ok r
      else (r.reassembler.pushSubstring seg.payload (r.absoluteSeqno seg isn - 1)
        seg.header.fin).map fun reassembler => { r with reassembler := reassembler } := by
  have hafter : r.isnAfter seg = some isn := by simp [isnAfter, noSyn, hisn]
  have hdata : dataStart seg = seg.header.seqno := by simp [dataStart, noSyn]
  unfold segmentReceived
  simp only [hafter, hdata]
  by_cases filtered : seg.header.seqno = isn
  · rw [if_pos filtered.symm, if_pos filtered, ← hisn]
  · rw [if_neg fun heq => filtered heq.symm, if_neg filtered,
      (range.streamIndex_eq noSyn filtered).2]
    cases r.reassembler.pushSubstring seg.payload (r.absoluteSeqno seg isn - 1)
        seg.header.fin with
    | error fault => rfl
    | ok reassembler => rw [← hisn]; rfl

/-- The receiver ignores what the reassembler does not see. -/
theorem unseen_iff (hisn : r.isn = some isn) (noSyn : seg.header.syn = false)
    (range : r.InRange seg) (passed : seg.header.seqno ≠ isn) :
    (∃ r', r.segmentReceived seg = .ok r' ∧ Equivalent r r') ↔
      r.reassembler.Unseen seg.payload (r.absoluteSeqno seg isn - 1) seg.header.fin := by
  rw [segmentReceived_of_isn hisn noSyn range, if_neg passed]
  constructor
  · rintro ⟨r', received, same⟩
    cases pushed : r.reassembler.pushSubstring seg.payload (r.absoluteSeqno seg isn - 1)
        seg.header.fin with
    | error fault => rw [pushed] at received; cases received
    | ok q =>
        rw [pushed] at received
        cases received
        exact ⟨q, pushed, (congrArg TCPReceiver.reassembler same).symm⟩
  · rintro ⟨q, pushed, same⟩
    refine ⟨{ r with reassembler := q }, by rw [pushed]; rfl, ?_⟩
    simp only [Equivalent, tidy, same]

/-- Below the window, only a new end leaves a trace. -/
theorem intrudes_below_iff (opened : r.windowSize ≠ 0) (passed : seg.header.seqno ≠ isn)
    (below : r.absoluteSeqno seg isn ≤ r.curIndex) :
    r.Intrudes seg isn ↔ seg.header.fin = true ∧ r.reassembler.eof = false := by
  constructor
  · rintro ⟨-, -, h | ⟨h, -⟩ | ⟨h, -⟩⟩
    · exact h.2
    · omega
    · omega
  · intro h
    exact ⟨by omega, passed, Or.inl ⟨below, h⟩⟩

/-- At the edge, or past it without data, only a new end right at the edge does. -/
theorem intrudes_cut_iff (opened : r.windowSize ≠ 0) (passed : seg.header.seqno ≠ isn)
    (fromEdge : r.curIndex + 1 + r.windowSize ≤ r.absoluteSeqno seg isn)
    (cut : r.absoluteSeqno seg isn = r.curIndex + 1 + r.windowSize ∨ seg.payload = []) :
    r.Intrudes seg isn ↔
      (seg.header.fin = true ∧ r.absoluteSeqno seg isn = r.curIndex + 1 + r.windowSize ∧
        seg.payload = []) ∧ r.reassembler.eof = false := by
  constructor
  · rintro ⟨-, -, ⟨h, -⟩ | ⟨here, bare, fin, unknown⟩ | ⟨past, some, -⟩⟩
    · omega
    · exact ⟨⟨fin, here, bare⟩, unknown⟩
    · exact absurd (cut.resolve_left past.ne') some
  · rintro ⟨⟨fin, here, bare⟩, unknown⟩
    exact ⟨by omega, passed, Or.inr (Or.inl ⟨here, bare, fin, unknown⟩)⟩

/-- Past the edge, data do that are not stored already. -/
theorem intrudes_past_iff (opened : r.windowSize ≠ 0) (passed : seg.header.seqno ≠ isn)
    (past : r.curIndex + 1 + r.windowSize < r.absoluteSeqno seg isn)
    (some : seg.payload ≠ []) : r.Intrudes seg isn ↔ ¬ r.HeldByNode seg isn := by
  constructor
  · rintro ⟨-, -, ⟨h, -⟩ | ⟨here, -⟩ | ⟨-, -, unheld⟩⟩
    · omega
    · omega
    · exact unheld
  · intro unheld
    exact ⟨by omega, passed, Or.inr (Or.inr ⟨past, some, unheld⟩)⟩

/-- **Which segments outside the window change nothing**, on the internal state.  The right-hand
side can be decided before the segment is taken. -/
theorem Inv.equivalent_iff (inv : r.Inv) (settled : r.reassembler.Settled)
    (range : r.InRange seg) (hisn : r.isn = some isn) (noSyn : seg.header.syn = false)
    (length : 0 < seg.lengthInSequenceSpace) (outside : r.Outside seg isn) :
    (∃ r', r.segmentReceived seg = .ok r' ∧ Equivalent r r') ↔ ¬ r.Intrudes seg isn := by
  by_cases filtered : seg.header.seqno = isn
  · refine ⟨fun _ intrudes => intrudes.2.1 filtered, fun _ => ⟨r, ?_, rfl⟩⟩
    rw [segmentReceived_of_isn hisn noSyn range, if_pos filtered]
  have hdata : dataStart seg = seg.header.seqno := by simp [dataStart, noSyn]
  obtain ⟨hpos, hindex⟩ := range.streamIndex_eq noSyn filtered
  obtain ⟨hcur, hlen⟩ := range.bounds (hdata ▸ filtered)
  rw [hindex] at hlen
  have hwindow := inv.windowSize_eq
  have hedge : r.reassembler.edge = r.curIndex + r.windowSize := by rw [hwindow]; rfl
  have hcurIndex : r.reassembler.curIndex = r.curIndex := rfl
  rw [unseen_iff hisn noSyn range filtered]
  by_cases full : r.windowSize = 0
  · refine ⟨fun _ intrudes => by have := intrudes.1; omega, fun _ => ?_⟩
    exact ⟨_, inv.reassembler.push_full hcur (hwindow ▸ full) _ _ _, rfl⟩
  have free : r.reassembler.output.remainingCapacity ≠ 0 := fun h => full (hwindow.trans h)
  by_cases below : r.absoluteSeqno seg isn ≤ r.curIndex
  · -- the window is open, so the whole segment lies below it
    have whole : r.absoluteSeqno seg isn + seg.lengthInSequenceSpace ≤ r.curIndex + 1 := by
      by_contra reaches
      rcases outside (r.curIndex + 1) (by omega) (by omega) with h | h <;> omega
    have shorter := seg.length_payload_le
    rw [inv.reassembler.unseen_below_iff settled hcur hlen free (by omega),
      intrudes_below_iff full filtered below, not_and, Bool.not_eq_false]
  have fromEdge : r.curIndex + 1 + r.windowSize ≤ r.absoluteSeqno seg isn :=
    (outside _ le_rfl (by omega)).resolve_left (by omega)
  by_cases cut : r.absoluteSeqno seg isn = r.curIndex + 1 + r.windowSize ∨ seg.payload = []
  · have atEdge : r.absoluteSeqno seg isn = r.curIndex + 1 + r.windowSize ↔
        r.absoluteSeqno seg isn - 1 = r.reassembler.edge := by omega
    rw [inv.reassembler.unseen_cut_iff settled hcur hlen free (by omega)
      (cut.imp_left atEdge.mp), intrudes_cut_iff full filtered fromEdge cut, atEdge, not_and,
      Bool.not_eq_false]
  · obtain ⟨notAt, some⟩ := not_or.mp cut
    rw [inv.reassembler.unseen_past_iff settled hcur hlen free (by omega) some,
      intrudes_past_iff full filtered (by omega) some, not_not, HeldByNode]

end Outside

/-- **Segments wholly outside the window**, in every reachable state whose initial
sequence number is set: such a segment is ignored, now and in the effect of everything
that follows, if and only if it does not intrude. -/
theorem outside_ignored_iff {capacity : ℕ} (hcap : capacity < 2 ^ 64) {r : TCPReceiver}
    (run : GuardedRun step OpInRange (new capacity) r) {seg : TCPSegment}
    (range : r.InRange seg) {isn : WrappingInt32} (hisn : r.isn = some isn)
    (noSyn : seg.header.syn = false) (length : 0 < seg.lengthInSequenceSpace)
    (outside : r.Outside seg isn) :
    (∃ r', r.segmentReceived seg = .ok r' ∧ Ignored r r') ↔ ¬ r.Intrudes seg isn := by
  have inv := inv_of_run hcap run
  rw [← inv.equivalent_iff (settled_of_run run) range hisn noSyn length outside]
  constructor
  · rintro ⟨r', received, ignored⟩
    exact ⟨r', received, ignored.equivalent⟩
  · rintro ⟨r', received, same⟩
    exact ⟨r', received, same.ignored inv (inv.segmentReceived range received)⟩

/-- A duplicate of the first byte. -/
theorem outside_ignored_iff_duplicate :
    ∃ r, execute step (new 4) [.segment { header := { syn := true } },
        .segment { header := { seqno := ⟨1⟩ }, payload := [97, 98] }] = .ok r ∧
      ∃ r', r.segmentReceived { header := { seqno := ⟨1⟩ }, payload := [97] } = .ok r' ∧
        Ignored r r' := by
  obtain ⟨r, done, admitted, range, hisn, below, quiet⟩ : ∃ r, execute step (new 4)
      [.segment { header := { syn := true } },
        .segment { header := { seqno := ⟨1⟩ }, payload := [97, 98] }] = .ok r ∧
      Admitted step OpInRange (new 4) [.segment { header := { syn := true } },
        .segment { header := { seqno := ⟨1⟩ }, payload := [97, 98] }] ∧
      r.InRange { header := { seqno := ⟨1⟩ }, payload := [97] } ∧ r.isn = some ⟨0⟩ ∧
      r.absoluteSeqno { header := { seqno := ⟨1⟩ }, payload := [97] } ⟨0⟩ + 1
        ≤ r.curIndex + 1 ∧
      ¬ r.Intrudes { header := { seqno := ⟨1⟩ }, payload := [97] } ⟨0⟩ :=
    ⟨_, rfl, by decide⟩
  have hcap : 4 < 2 ^ 64 := by decide
  exact ⟨r, done, (outside_ignored_iff hcap (GuardedRun.of_execute admitted done) range hisn
    rfl (by decide) (outside_of_below below)).mpr quiet⟩

/-- **Two segments that are not ignored**, by a receiver with room for four bytes.
A byte at 6, past the window `[1, 5)`, is stored; and a duplicate of the first byte,
received before, ends the stream if its FIN flag is set. -/
theorem outside_not_ignored :
    (∃ r seg r', GuardedRun step OpInRange (new 4) r ∧ r.InRange seg ∧
      r.isn = some ⟨0⟩ ∧ seg.header.syn = false ∧ 0 < seg.lengthInSequenceSpace ∧
      r.Outside seg ⟨0⟩ ∧ r.segmentReceived seg = .ok r' ∧
      r.unassembledBytes = 0 ∧ r'.unassembledBytes = 1) ∧
    ∃ r seg r', GuardedRun step OpInRange (new 4) r ∧ r.InRange seg ∧
      r.isn = some ⟨0⟩ ∧ seg.header.syn = false ∧ 0 < seg.lengthInSequenceSpace ∧
      r.Outside seg ⟨0⟩ ∧ r.segmentReceived seg = .ok r' ∧
      r.streamOut.inputEnded = false ∧ r'.streamOut.inputEnded = true := by
  constructor
  · obtain ⟨r, done, admitted, range, hisn, past, r', received, before, after⟩ : ∃ r,
        execute step (new 4) [.segment { header := { syn := true } }] = .ok r ∧
        Admitted step OpInRange (new 4) [.segment { header := { syn := true } }] ∧
        r.InRange { header := { seqno := ⟨6⟩ }, payload := [97] } ∧ r.isn = some ⟨0⟩ ∧
        r.curIndex + 1 + r.windowSize
          ≤ r.absoluteSeqno { header := { seqno := ⟨6⟩ }, payload := [97] } ⟨0⟩ ∧ ∃ r',
        r.segmentReceived { header := { seqno := ⟨6⟩ }, payload := [97] } = .ok r' ∧
        r.unassembledBytes = 0 ∧ r'.unassembledBytes = 1 :=
      ⟨_, rfl, by decide, by decide, rfl, by decide, _, rfl, rfl, rfl⟩
    exact ⟨r, _, r', GuardedRun.of_execute admitted done, range, hisn, rfl, by decide,
      outside_of_past past, received, before, after⟩
  · obtain ⟨r, done, admitted, range, hisn, below, r', received, before, after⟩ : ∃ r,
        execute step (new 4) [.segment { header := { syn := true } },
          .segment { header := { seqno := ⟨1⟩ }, payload := [97, 98] }] = .ok r ∧
        Admitted step OpInRange (new 4) [.segment { header := { syn := true } },
          .segment { header := { seqno := ⟨1⟩ }, payload := [97, 98] }] ∧
        r.InRange { header := { seqno := ⟨1⟩, fin := true }, payload := [97] } ∧
        r.isn = some ⟨0⟩ ∧
        r.absoluteSeqno { header := { seqno := ⟨1⟩, fin := true }, payload := [97] } ⟨0⟩ + 2
          ≤ r.curIndex + 1 ∧ ∃ r',
        r.segmentReceived { header := { seqno := ⟨1⟩, fin := true }, payload := [97] }
          = .ok r' ∧
        r.streamOut.inputEnded = false ∧ r'.streamOut.inputEnded = true :=
      ⟨_, rfl, by decide, by decide, rfl, by decide, _, rfl, rfl, rfl⟩
    exact ⟨r, _, r', GuardedRun.of_execute admitted done, range, hisn, rfl, by decide,
      outside_of_below below, received, before, after⟩

end TCPReceiver

end Sponge
