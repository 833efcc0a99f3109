import Sponge.StreamReassembler.Store

/-!
# Pushing excerpts of a stream

What a push does to the indices a reassembler holds, and what follows when every
push is an excerpt of one stream `S`: the bytes read and buffered are a prefix of
`S` (`Faithful`), and the stream ends where `S` ends (`EndHeld`), as long as no bare
end-of-stream push overtakes the byte in front of it (`BareEofInOrder`).

### Two layers

The first part is about indices alone.  `Inv.holds_push` says which indices a push adds,
without looking at a single byte, and that is enough for the memory bound and for progress.
The second part adds the bytes: `Faithful` is relative to a stream `S` that the pushes are
taken from, and its proofs use of a push only that it was `Stored` and that the chunk was an
excerpt.

`S` may be unfinished.  A sender that has not been given all its data has a stream that will
still grow, and a reassembler that is faithful to the shorter one is faithful to the longer
(`Faithful.grow`).  Once the end is known it may not grow any more, which is the premise of
`EndHeld.grow`.

### The condition on bare ends

A push without bytes that carries the end-of-stream flag is the one push whose end cannot be
told from its bytes.  `out` then looks only at whether something is stored.  If the byte in
front of the end is neither assembled nor stored, and nothing else is stored, the stream
ends too early.  `BareEofInOrder` says that this byte is there, and asks it only of a push
that finds room and is not past the edge: any other is either ignored or loses its flag.
-/

namespace Sponge

open Chunks

namespace StreamReassembler

/-! ## What every push does to the indices held -/

/-- **A push adds exactly its bytes below the edge** to what is held, provided it does not start
past the edge.  A push that starts past the edge is where the source differs: the length to keep
then wraps around, and all of the substring is stored. -/
theorem Inv.holds_push {r r' : StreamReassembler} (inv : r.Inv) {data : List UInt8}
    {index : ℕ} {eof : Bool} (hcur : r.curIndex < 2 ^ 64)
    (hlen : index + data.length < 2 ^ 64) (inside : data = [] ∨ index ≤ r.edge)
    (h : r.pushSubstring data index eof = .ok r') (i : ℕ) :
    r'.Holds i ↔ r.Holds i ∨ (index ≤ i ∧ i < index + data.length ∧ i < r.edge) := by
  have hedge : r.edge = r.curIndex + r.output.remainingCapacity := rfl
  have below : i < r.curIndex → r.Holds i := Or.inl
  -- a full stream has its edge at the write index, and known bytes lie below it
  rcases inv.push_cases hcur hlen h with ⟨full, rfl⟩ | ⟨-, known, stored⟩ | ⟨-, fresh, stored⟩
  · refine ⟨Or.inl, fun hi => hi.elim id fun ⟨_, _, hlt⟩ => below ?_⟩
    omega
  · rw [stored.holds i]
    have : ¬ (⟨r.curIndex, []⟩ : Chunk UInt8).Covers i := by
      simp only [Chunk.Covers, Chunk.stop, List.length_nil]
      omega
    refine ⟨fun hi => Or.inl (hi.resolve_right this), fun hi => Or.inl ?_⟩
    exact hi.elim id fun ⟨_, hlt, _⟩ => below (by omega)
  · rw [stored.holds i]
    simp only [Chunk.Covers, clipped_start, clipped_stop fresh]
    have hempty : data = [] → data.length = 0 := fun h => by simp [h]
    constructor
    · rintro (hi | ⟨hlow, hupp⟩)
      · exact Or.inl hi
      · refine Or.inr ?_
        split at hupp
        · omega
        · rcases inside with hnil | hin
          · have := hempty hnil
            omega
          · omega
    · rintro (hi | ⟨hlow, hupp, hwin⟩)
      · exact Or.inl hi
      · by_cases hb : i < r.curIndex
        · exact Or.inl (below hb)
        · refine Or.inr ⟨by omega, ?_⟩
          rw [if_pos (by omega)]
          omega

theorem Inv.curIndex_le_edge (r : StreamReassembler) : r.curIndex ≤ r.edge :=
  Nat.le_add_right _ _

/-- Pushing keeps the invariant. -/
theorem Inv.push {r r' : StreamReassembler} (inv : r.Inv) {data : List UInt8}
    {index : ℕ} {eof : Bool} (hcur : r.curIndex < 2 ^ 64)
    (hlen : index + data.length < 2 ^ 64) (h : r.pushSubstring data index eof = .ok r') :
    r'.Inv := by
  rcases inv.push_cases hcur hlen h with ⟨-, rfl⟩ | ⟨-, -, stored⟩ | ⟨-, -, stored⟩
  · exact inv
  · exact stored.inv
  · exact stored.inv

/-- Pushing does not move the edge. -/
theorem Inv.edge_push {r r' : StreamReassembler} (inv : r.Inv) {data : List UInt8}
    {index : ℕ} {eof : Bool} (hcur : r.curIndex < 2 ^ 64)
    (hlen : index + data.length < 2 ^ 64) (h : r.pushSubstring data index eof = .ok r') :
    r'.edge = r.edge := by
  have grown := pushSubstring_grown h
  rw [inv.edge_eq, (inv.push hcur hlen h).edge_eq, grown.bytesRead, grown.capacity]

/-- The end is known only from a push that reports it. -/
theorem Inv.eof_push {r r' : StreamReassembler} (inv : r.Inv) {data : List UInt8}
    {index : ℕ} {eof : Bool} (hcur : r.curIndex < 2 ^ 64)
    (hlen : index + data.length < 2 ^ 64) (h : r.pushSubstring data index eof = .ok r')
    (known : r'.eof = true) : r.eof = true ∨ eof = true := by
  rcases inv.push_cases hcur hlen h with ⟨-, rfl⟩ | ⟨-, -, stored⟩ | ⟨-, -, stored⟩
  · exact Or.inl known
  · rwa [stored.eof, Bool.or_eq_true] at known
  · rw [stored.eof, Bool.or_eq_true, Bool.and_eq_true] at known
    exact known.imp_right And.left

/-- A push that carries the next byte assembles all it carries, up to the edge. -/
theorem Inv.push_progress {r r' : StreamReassembler} (inv : r.Inv) {data : List UInt8}
    {eof : Bool} (hlen : r.curIndex + data.length < 2 ^ 64)
    (h : r.pushSubstring data r.curIndex eof = .ok r') :
    r.curIndex + min data.length r.output.remainingCapacity ≤ r'.curIndex := by
  have hcur : r.curIndex < 2 ^ 64 := by omega
  have hedge : r.edge = r.curIndex + r.output.remainingCapacity := rfl
  have grown := (pushSubstring_grown h).curIndex_le
  by_contra short
  -- the first index not assembled would be held, but stored chunks start past it
  have held : r'.Holds r'.curIndex :=
    (inv.holds_push hcur hlen (Or.inr (Inv.curIndex_le_edge r)) h _).mpr
      (Or.inr ⟨grown, by omega, by omega⟩)
  rcases held with hlt | ⟨c, hc, hlow, -⟩
  · exact lt_irrefl _ hlt
  · exact absurd ((inv.push hcur hlen h).beyond c hc) (not_lt.mpr hlow)

/-- A push that does not start past the edge stores nothing past it. -/
theorem Inv.inWindow_push {r r' : StreamReassembler} (inv : r.Inv)
    (inWindow : r.InWindow) {data : List UInt8} {index : ℕ} {eof : Bool}
    (hcur : r.curIndex < 2 ^ 64) (hlen : index + data.length < 2 ^ 64)
    (inside : data = [] ∨ index ≤ r.edge)
    (h : r.pushSubstring data index eof = .ok r') : r'.InWindow := by
  intro i hi
  rw [inv.edge_push hcur hlen h]
  rcases (inv.holds_push hcur hlen inside h i).mp (Or.inr hi) with (hlt | hcov) | ⟨_, _, hlt⟩
  · exact lt_of_lt_of_le hlt (Inv.curIndex_le_edge r)
  · exact inWindow i hcov
  · exact hlt

/-- Reading widens the window, so what was inside stays inside. -/
theorem Inv.inWindow_popOutput {r : StreamReassembler} (inv : r.Inv)
    (inWindow : r.InWindow) (len : ℕ) :
    InWindow { r with output := r.output.popOutput len } := fun i hi =>
  lt_of_lt_of_le (inWindow i hi) (inv.edge_popOutput len)

/-! ## Excerpts of one stream -/

/-- With `popped` read so far, the reassembler has assembled a prefix of `S` and stores excerpts
of `S`.  Nothing is said of how much of `S` it holds. -/
structure Faithful (S : List UInt8) (r : StreamReassembler) (popped : List UInt8) :
    Prop where
  inv : r.Inv
  agrees : r.AgreesWith S
  written_eq : popped ++ r.output.str = S.take r.curIndex
  curIndex_le : r.curIndex ≤ S.length

/-- A reassembler that has seen nothing is faithful to any stream. -/
theorem faithful_new (S : List UInt8) {capacity : ℕ} (h : capacity < 2 ^ 64) :
    Faithful S (new capacity) [] where
  inv := inv_new h
  agrees := by simp [AgreesWith, new, chunks]
  written_eq := rfl
  curIndex_le := Nat.zero_le _

section Faithful

variable {S : List UInt8} {r r' : StreamReassembler} {popped : List UInt8}

/-- Storing an excerpt of `S` keeps the reassembler faithful to `S`. -/
theorem Faithful.stored (h : Faithful S r popped) {c : Chunk UInt8} {e : Bool}
    (stored : Stored r c e r') (excerpt : c.ExcerptOf S) : Faithful S r' popped := by
  obtain ⟨w, hstr, hcur, hw⟩ := stored.appended
  have hpre := hw S excerpt h.agrees
  have hlen := hpre.length_le
  have hle := h.curIndex_le
  rw [List.length_drop] at hlen
  refine ⟨stored.inv, stored.agrees S excerpt h.agrees, ?_, by omega⟩
  rw [hstr, ← List.append_assoc, h.written_eq, hcur, List.take_add,
    List.prefix_iff_eq_take.mp hpre]
  simp

/-- Pushing an excerpt of `S` keeps the reassembler faithful to `S`. -/
theorem Faithful.push (h : Faithful S r popped) {data : List UInt8} {index : ℕ} {eof : Bool}
    (hcur : r.curIndex < 2 ^ 64) (hlen : index + data.length < 2 ^ 64)
    (excerpt : data <+: S.drop index) (hp : r.pushSubstring data index eof = .ok r') :
    Faithful S r' popped := by
  rcases h.inv.push_cases hcur hlen hp with ⟨-, rfl⟩ | ⟨-, -, stored⟩ | ⟨-, -, stored⟩
  · exact h
  · exact h.stored stored List.nil_prefix
  · exact h.stored stored (clipped_excerptOf excerpt)

/-- Reading moves bytes from the buffer to the reader. -/
theorem Faithful.popOutput (h : Faithful S r popped) (len : ℕ) :
    Faithful S { r with output := r.output.popOutput len } (popped ++ r.output.str.take len) where
  inv := h.inv.popOutput len
  agrees := h.agrees
  written_eq := by
    show _ ++ (r.output.popOutput len).str = _
    rw [h.inv.output.popOutput_str, List.append_assoc, List.take_append_drop]
    exact h.written_eq
  curIndex_le := h.curIndex_le

/-- Marking the stream as broken moves no byte. -/
theorem Faithful.setError (h : Faithful S r popped) :
    Faithful S { r with output := r.output.setError } popped :=
  ⟨h.inv.setError, h.agrees, h.written_eq, h.curIndex_le⟩

/-- The stream may turn out to be longer. -/
theorem Faithful.grow (h : Faithful S r popped) (data : List UInt8) :
    Faithful (S ++ data) r popped where
  inv := h.inv
  agrees := fun c hc => Chunk.ExcerptOf.append (h.agrees c hc) data
  written_eq := by
    rw [List.take_append_of_le_length h.curIndex_le]
    exact h.written_eq
  curIndex_le := by
    rw [List.length_append]
    exact h.curIndex_le.trans (Nat.le_add_right _ _)

/-- Nothing is stored once the whole of `S` is assembled. -/
theorem Faithful.empty_of_complete (h : Faithful S r popped)
    (complete : r.curIndex = S.length) : r.empty = true := by
  have hsize : size r.chunks = 0 := by
    rw [← h.inv.separated.card_cells, Finset.card_eq_zero, Finset.eq_empty_iff_forall_notMem]
    intro i hi
    obtain ⟨c, hc, hlow, hupp⟩ := mem_cells.mp hi
    have hbeyond := h.inv.beyond c hc
    have hpre := (h.agrees c hc).length_le
    rw [List.length_drop] at hpre
    simp only [Chunk.stop] at hupp
    omega
  rw [empty, unassembledBytes_eq_size, hsize]
  rfl

/-- With the last byte held and nothing stored, the whole of `S` is assembled. -/
theorem Faithful.complete_of_empty (h : Faithful S r popped)
    (held : ∀ i, i + 1 = S.length → r.Holds i) (empty : r.empty = true) :
    r.curIndex = S.length := by
  have hle := h.curIndex_le
  have hsize : size r.chunks = 0 := by
    rw [← unassembledBytes_eq_size]
    exact beq_iff_eq.mp empty
  by_contra incomplete
  rcases held (S.length - 1) (by omega) with hlt | hcov
  · omega
  · exact not_covered_of_size_eq_zero hsize _ hcov

end Faithful

/-! ## The end of the stream -/

/-- A bare end-of-stream push that finds free capacity and is not past the edge does
not overtake the byte in front of it: that byte is assembled or stored.  Past the
edge the end would be cut off, and nothing of the push is taken. -/
def BareEofInOrder (r : StreamReassembler) (data : List UInt8) (index : ℕ) (eof : Bool) :
    Prop :=
  eof = true → data = [] → 0 < r.output.remainingCapacity → index ≤ r.edge →
    index ≤ r.curIndex ∨ ∃ n ∈ r.list, n.beg < index ∧ index ≤ n.end_ + 1

instance (r : StreamReassembler) (data : List UInt8) (index : ℕ) (eof : Bool) :
    Decidable (r.BareEofInOrder data index eof) :=
  inferInstanceAs (Decidable (_ → _ → _ → _ → _))

/-- Once the end is known the last byte is held, and the stream has ended exactly when it is
assembled.  The source ends the stream when it knows of an end and stores nothing; that this is
the right moment is what the last byte is needed for. -/
structure EndHeld (S : List UInt8) (r : StreamReassembler) (popped : List UInt8) : Prop where
  faithful : Faithful S r popped
  last_held : r.eof = true → ∀ i, i + 1 = S.length → r.Holds i
  ended_iff : r.output.inputIsEnd = true ↔ r.eof = true ∧ r.curIndex = S.length

/-- A reassembler that has seen nothing knows of no end. -/
theorem endHeld_new (S : List UInt8) {capacity : ℕ} (h : capacity < 2 ^ 64) :
    EndHeld S (new capacity) [] where
  faithful := faithful_new S h
  last_held := by simp [new]
  ended_iff := by simp [new, ByteStream.new]

section EndHeld

variable {S : List UInt8} {r r' : StreamReassembler} {popped : List UInt8}

/-- Storing `c` and reporting `e` keeps the end right, if a reported end finds the
last byte held. -/
theorem EndHeld.stored (h : EndHeld S r popped) (faithful : Faithful S r' popped)
    (grown : Grown r r') {c : Chunk UInt8} {e : Bool} (stored : Stored r c e r')
    (last : e = true → ∀ i, i + 1 = S.length → r'.Holds i) : EndHeld S r' popped := by
  have heof : r'.eof = (r.eof || e) := stored.eof
  have held : r'.eof = true → ∀ i, i + 1 = S.length → r'.Holds i := by
    intro he i hi
    rw [heof, Bool.or_eq_true] at he
    rcases he with he | he
    · exact (stored.holds i).mpr (Or.inl (h.last_held he i hi))
    · exact last he i hi
  refine ⟨faithful, held, ?_⟩
  rw [stored.ended, Bool.or_eq_true, Bool.and_eq_true]
  constructor
  · rintro (hended | ⟨he, hempty⟩)
    · obtain ⟨he, hcomplete⟩ := h.ended_iff.mp hended
      have := grown.curIndex_le
      have := faithful.curIndex_le
      refine ⟨by rw [heof, he, Bool.true_or], by omega⟩
    · exact ⟨he, faithful.complete_of_empty (held he) hempty⟩
  · rintro ⟨he, hcomplete⟩
    exact Or.inr ⟨he, faithful.empty_of_complete hcomplete⟩

/-- **One push of an excerpt**, an end-of-stream report at the end of `S` and in order.  The
condition on the order is for a report without bytes, since only such a report leaves nothing
behind in the store. -/
theorem EndHeld.push (h : EndHeld S r popped) {data : List UInt8} {index : ℕ} {eof : Bool}
    (hcur : r.curIndex < 2 ^ 64) (hlen : index + data.length < 2 ^ 64)
    (excerpt : data <+: S.drop index) (heof : eof = true → index + data.length = S.length)
    (inOrder : r.BareEofInOrder data index eof)
    (hp : r.pushSubstring data index eof = .ok r') : EndHeld S r' popped := by
  have faithful := h.faithful.push hcur hlen excerpt hp
  have grown := pushSubstring_grown hp
  have inv := h.faithful.inv
  rcases inv.push_cases hcur hlen hp with
    ⟨-, rfl⟩ | ⟨-, known, stored⟩ | ⟨free, fresh, stored⟩
  · exact h
  · refine h.stored faithful grown stored fun he i hi => ?_
    have := heof he
    exact (stored.holds i).mpr (Or.inl (Or.inl (by omega)))
  · refine h.stored faithful grown stored fun he i hi => ?_
    obtain ⟨rfl, hcarries⟩ := (Bool.and_eq_true _ _).mp he
    obtain ⟨hend, -⟩ := of_decide_eq_true hcarries
    have hlast := heof rfl
    rw [stored.holds i]
    by_cases bare : data = []
    · -- the byte in front of a bare end is assembled or stored
      refine Or.inl ?_
      have hnone : data.length = 0 := by rw [bare, List.length_nil]
      rcases inOrder rfl bare free (by omega) with hpast | ⟨n, hn, hbeg, hend'⟩
      · exact Or.inl (by omega)
      · obtain ⟨hmem, -, hnode⟩ := inv.node_of_mem hn
        refine Or.inr ⟨n.toChunk, hmem, ?_, ?_⟩ <;>
          simp only [ListNode.toChunk, Chunk.stop] <;> omega
    · -- otherwise the last byte is the last one of the push
      have hpos : 0 < data.length := List.length_pos_iff.mpr bare
      refine Or.inr ⟨?_, ?_⟩
      · rw [clipped_start]
        omega
      · rw [clipped_stop fresh]
        split <;> omega

/-- Reading neither reports nor forgets an end. -/
theorem EndHeld.popOutput (h : EndHeld S r popped) (len : ℕ) :
    EndHeld S { r with output := r.output.popOutput len } (popped ++ r.output.str.take len) :=
  ⟨h.faithful.popOutput len, h.last_held, h.ended_iff⟩

/-- Nor does marking the stream as broken. -/
theorem EndHeld.setError (h : EndHeld S r popped) :
    EndHeld S { r with output := r.output.setError } popped :=
  ⟨h.faithful.setError, h.last_held, h.ended_iff⟩

/-- The stream may turn out to be longer only while its end is not known. -/
theorem EndHeld.grow (h : EndHeld S r popped) (data : List UInt8)
    (known : r.eof = true → data = []) : EndHeld (S ++ data) r popped := by
  by_cases eof : r.eof = true
  · rw [known eof, List.append_nil]
    exact h
  · refine ⟨h.faithful.grow data, fun he => absurd he eof, ?_⟩
    rw [h.ended_iff]
    exact ⟨fun hc => absurd hc.1 eof, fun hc => absurd hc.1 eof⟩

end EndHeld

end StreamReassembler

end Sponge
