import Sponge.StreamReassembler

/-!
# What a push does

`Stored r c e r'` says everything later proofs need about storing the chunk `c`
in `r`: the invariant survives, the assembled bytes grow by a prefix of what is
now contiguous, and **what is held is what was held plus `c`**, where *held* means
assembled or stored.

`Inv.push_cases` reads a successful `push_substring` as one of three outcomes;
`Inv.push_succeeds` says that a reassembler whose stored bytes all lie inside the
window never throws, whatever is pushed.

### Why *held*

A push may write bytes, store them, or move stored bytes to the stream, and which of these
it does depends on what is stored already.  The set of indices that are assembled or stored
does not: it grows by exactly the indices of the chunk, whatever the merging loop does.  So
the results about sessions are stated about held indices, and the distinction between the
stream and the list is recovered at the end, from the invariant that the list lies strictly
beyond `_cur_index`.

### Two kinds of facts

What is said under `Inv` needs the 64-bit bounds, as `pushSubstring_eq` does.  What is said
under *What no push can undo* needs nothing: it is read off the code and holds from any
state and with any arguments, also for a substring past the window whose indices overflow.
The receiver uses these where it has no bound on what the peer sends.
-/

namespace Sponge

open Chunks

namespace StreamReassembler

/-- Index `i` has been assembled or is stored. -/
def Holds (r : StreamReassembler) (i : ℕ) : Prop :=
  i < r.curIndex ∨ Covered r.chunks i

/-- Every stored byte lies inside the window. -/
def InWindow (r : StreamReassembler) : Prop := ∀ i, Covered r.chunks i → i < r.edge

/-- Every stored chunk agrees with the stream `S`. -/
def AgreesWith (r : StreamReassembler) (S : List UInt8) : Prop :=
  ∀ c ∈ r.chunks, c.ExcerptOf S

/-- The effect of storing the chunk `c`, with end-of-stream report `e`.  What is held is said with
indices and not with nodes, so how the list is cut into nodes is no concern of any module above.
-/
structure Stored (r : StreamReassembler) (c : Chunk UInt8) (e : Bool)
    (r' : StreamReassembler) : Prop where
  inv : r'.Inv
  /-- The stream grows at its end, by as many bytes as `_cur_index` advances, and
  by bytes of any stream the chunk and the store agree with. -/
  appended : ∃ w : List UInt8, r'.output.str = r.output.str ++ w ∧
    r'.curIndex = r.curIndex + w.length ∧
    ∀ S, c.ExcerptOf S → r.AgreesWith S → w <+: S.drop r.curIndex
  holds : ∀ i, r'.Holds i ↔ r.Holds i ∨ c.Covers i
  agrees : ∀ S, c.ExcerptOf S → r.AgreesWith S → r'.AgreesWith S
  eof : r'.eof = (r.eof || e)
  ended : r'.output.inputIsEnd = (r.output.inputIsEnd || (r'.eof && r'.empty))

/-- Reporting an end stores nothing and frees nothing. -/
theorem out_empty (r : StreamReassembler) (e : Bool) : (r.out e).empty = r.empty := by
  simp [empty, unassembledBytes]

/-- After `out`, a known end with nothing stored has ended the stream. -/
theorem out_ended (r : StreamReassembler) (e : Bool) :
    (r.out e).output.inputIsEnd
      = (r.output.inputIsEnd || ((r.out e).eof && (r.out e).empty)) := by
  rw [out_inputIsEnd, out_eof, out_empty]

/-- Reporting the end of the stream alone stores nothing: the effect of a chunk
that is held already. -/
theorem Inv.stored_out {r : StreamReassembler} (inv : r.Inv) {c : Chunk UInt8}
    (known : ∀ i, c.Covers i → r.Holds i) (e : Bool) : Stored r c e (r.out e) where
  inv := inv.out e
  appended := ⟨[], by simp, by simp, fun _ _ _ => List.nil_prefix⟩
  holds := by
    intro i
    simp only [Holds, out_curIndex, out_chunks]
    exact ⟨Or.inl, fun h => h.elim id (known i)⟩
  agrees := by
    intro S _ h
    simpa [AgreesWith] using h
  eof := out_eof r e
  ended := out_ended r e

/-- What is left of the list after a pass is still separated, beyond
`_cur_index` and in range. -/
theorem Inv.rest {r : StreamReassembler} (inv : r.Inv) {c c' : Chunk UInt8}
    {cs : List (Chunk UInt8)} (joined : Joined c r.chunks c' cs) :
    Separated cs ∧ (∀ d ∈ cs, r.curIndex < d.start) ∧ ∀ d ∈ cs, d.stop < 2 ^ 64 :=
  ⟨inv.separated.sublist joined.sublist,
    fun d hd => inv.beyond d (joined.sublist.subset hd),
    fun d hd => inv.inRange d (joined.sublist.subset hd)⟩

/-- The merged chunk is next in order: it is written to the stream. -/
theorem Inv.stored_written {r : StreamReassembler} (inv : r.Inv) {c c' : Chunk UInt8}
    {cs : List (Chunk UInt8)} (joined : Joined c r.chunks c' cs)
    (next : c'.start = r.curIndex)
    (fits : c'.data.length ≤ r.output.remainingCapacity) (e : Bool) :
    Stored r c e ((r.advance c'.data cs).out e) := by
  obtain ⟨separated, beyond, inRange⟩ := inv.rest joined
  have hmin : min c'.data.length r.output.remainingCapacity = c'.data.length :=
    Nat.min_eq_left fits
  have hstop : c'.stop = r.curIndex + c'.data.length := by
    rw [Chunk.stop, next]
  -- a chunk that was not met lies past the new `_cur_index`
  have past : ∀ d ∈ cs, r.curIndex + c'.data.length < d.start := by
    intro d hd
    rcases joined.apart d hd with before | after
    · have := beyond d hd
      have := d.start_le_stop
      omega
    · omega
  have inv' : (r.advance c'.data cs).Inv := by
    refine ⟨inv.output.write _, inv.capacity_eq, ?_, ?_, ?_, ?_, ?_⟩
    · simp only [advance, ByteStream.write_bytesWritten, inv.written, hmin]
    · rw [chunks_advance]
      rfl
    · simpa using separated
    · rw [chunks_advance]
      exact past
    · simpa using inRange
  refine ⟨inv'.out e, ⟨c'.data, ?_, ?_, ?_⟩, ?_, ?_, ?_, out_ended _ e⟩
  · simp [advance, hmin]
  · simp [advance]
  · intro S hc hr
    rw [← next]
    exact joined.excerpt S hc hr
  · intro i
    have hcov := joined.covers i
    have hcur : (r.advance c'.data cs).curIndex = r.curIndex + c'.data.length := rfl
    simp only [Holds, out_curIndex, out_chunks, chunks_advance, hcur]
    simp only [Chunk.Covers, hstop, next] at hcov ⊢
    constructor
    · rintro (h | h)
      · by_cases below : i < r.curIndex
        · exact Or.inl (Or.inl below)
        · rcases hcov.mp (Or.inl ⟨by omega, h⟩) with hc | hr
          · exact Or.inr hc
          · exact Or.inl (Or.inr hr)
      · rcases hcov.mp (Or.inr h) with hc | hr
        · exact Or.inr hc
        · exact Or.inl (Or.inr hr)
    · rintro ((h | h) | h)
      · exact Or.inl (by omega)
      · exact (hcov.mpr (Or.inr h)).imp_left And.right
      · exact (hcov.mpr (Or.inl h)).imp_left And.right
  · intro S hc hr d hd
    rw [out_chunks, chunks_advance] at hd
    exact hr d (joined.sublist.subset hd)
  · simp [advance]

/-- The merged chunk is not next in order: it goes into the list. -/
theorem Inv.stored_placed {r : StreamReassembler} (inv : r.Inv) {c c' : Chunk UInt8}
    {cs : List (Chunk UInt8)} (joined : Joined c r.chunks c' cs)
    (hcur : r.curIndex ≤ c.start) (bound : c.stop < 2 ^ 64)
    (later : c'.start ≠ r.curIndex) (e : Bool) :
    Stored r c e ((r.withChunks (place c' cs)).out e) := by
  obtain ⟨separated, beyond, inRange⟩ := inv.rest joined
  -- the chunk has not become contiguous, so all of it stays in the store
  have hstart : r.curIndex < c'.start := by
    rcases joined.start_eq with heq | ⟨d, hd, heq⟩
    · omega
    · have := inv.beyond d hd
      omega
  have inv' : (r.withChunks (place c' cs)).Inv := by
    refine ⟨inv.output, inv.capacity_eq, inv.written, ?_, ?_, ?_, ?_⟩
    · rw [chunks_withChunks]
      rfl
    · simpa using separated.place joined.apart
    · intro d hd
      rw [chunks_withChunks] at hd
      rcases mem_place.mp hd with rfl | hd
      · exact hstart
      · exact beyond d hd
    · intro d hd
      rw [chunks_withChunks] at hd
      rcases mem_place.mp hd with rfl | hd
      · exact inv.joined_stop_lt bound joined
      · exact inRange d hd
  refine ⟨inv'.out e, ⟨[], ?_, ?_, fun _ _ _ => List.nil_prefix⟩, ?_, ?_, ?_, out_ended _ e⟩
  · simp [withChunks]
  · simp [withChunks]
  · intro i
    have hcov := joined.covers i
    have hcur : (r.withChunks (place c' cs)).curIndex = r.curIndex := rfl
    simp only [Holds, out_curIndex, out_chunks, chunks_withChunks, covered_place, hcur]
    rw [hcov, or_assoc, or_comm (b := c.Covers i)]
  · intro S hc hr d hd
    rw [out_chunks, chunks_withChunks] at hd
    rcases mem_place.mp hd with rfl | hd
    · exact joined.excerpt S hc hr
    · exact hr d (joined.sublist.subset hd)
  · simp [withChunks]

/-- **The effect of `store`**, when it succeeds.  That it does succeed needs a store inside the
window, and is `Inv.push_succeeds`. -/
theorem Inv.stored_of_store {r r' : StreamReassembler} (inv : r.Inv) {c : Chunk UInt8}
    (hcur : r.curIndex ≤ c.start) (bound : c.stop < 2 ^ 64) {e : Bool}
    (h : r.store c e = .ok r') : Stored r c e r' := by
  have result := gather_result c inv.separated
  unfold store at h
  cases hg : gather c r.chunks with
  | held cs =>
      rw [hg] at h result
      obtain ⟨-, d, hd, hlow, hupp⟩ := result
      cases h
      refine inv.stored_out (fun i hi => Or.inr ⟨d, hd, hlow.trans hi.1, ?_⟩) e
      exact lt_of_lt_of_le hi.2 hupp
  | joined c' cs =>
      rw [hg] at h result
      simp only at h
      split at h
      · next next =>
        split at h
        · next fits =>
          cases h
          exact inv.stored_written result next fits e
        · cases h
      · next later =>
        cases h
        exact inv.stored_placed result hcur bound later e

/-- `store` fails only on a short write: the bytes that became contiguous do not
fit the stream. -/
theorem Inv.store_error {r : StreamReassembler} (inv : r.Inv) {c : Chunk UInt8}
    {e : Bool} {fault : Fault} (h : r.store c e = .error fault) :
    fault = .shortWrite ∧ ∃ c' cs, Joined c r.chunks c' cs ∧ c'.start = r.curIndex ∧
      r.output.remainingCapacity < c'.data.length := by
  have result := gather_result c inv.separated
  unfold store at h
  cases hg : gather c r.chunks with
  | held cs => rw [hg] at h; cases h
  | joined c' cs =>
      rw [hg] at h result
      simp only at h
      split at h
      · next next =>
        split at h
        · cases h
        · next unfit =>
          cases h
          exact ⟨rfl, c', cs, result, next, by omega⟩
      · cases h

/-! ## What no push can undo -/

/-- The stream keeps its capacity and its reader's position, and neither the write index nor the
end of the stream goes back.  It needs no invariant of the store. -/
structure Grown (r r' : StreamReassembler) : Prop where
  capacity : r'.output.capacity = r.output.capacity
  bytesRead : r'.output.bytesRead = r.output.bytesRead
  curIndex_le : r.curIndex ≤ r'.curIndex
  ended : r.output.inputEnded = true → r'.output.inputEnded = true

/-- Nothing happened. -/
theorem grown_refl (r : StreamReassembler) : Grown r r :=
  ⟨rfl, rfl, le_rfl, id⟩

/-- Reporting an end undoes nothing. -/
theorem Grown.out {r r' : StreamReassembler} (h : Grown r r') (e : Bool) :
    Grown r (r'.out e) := by
  refine ⟨?_, ?_, ?_, fun ended => ?_⟩
  · rw [out_output_capacity, h.capacity]
  · rw [out_output_bytesRead, h.bytesRead]
  · rw [out_curIndex]
    exact h.curIndex_le
  · rw [ByteStream.inputEnded, out_inputIsEnd]
    exact Bool.or_eq_true_iff.mpr (Or.inl (h.ended ended))

/-- A push that succeeds does nothing, or reaches the label `out` with the list
changed and perhaps bytes written, all of them accepted by the stream; it knows of
the end only what it was told. -/
theorem pushSubstring_outcome {r r' : StreamReassembler} {data : List UInt8} {index : ℕ}
    {eof : Bool} (h : r.pushSubstring data index eof = .ok r') :
    r' = r ∨ ∃ e list, (e = true → eof = true) ∧ (r' = { r with list := list }.out e ∨
      ∃ bytes, bytes.length ≤ r.output.remainingCapacity ∧ r' = { r with
        output := (r.output.write bytes).2
        curIndex := r.curIndex + bytes.length
        list := list }.out e) := by
  unfold pushSubstring at h
  simp only at h
  split at h
  · exact Or.inl (Except.ok.inj h).symm
  · refine Or.inr ?_
    split at h
    · exact ⟨eof, r.list, id, Or.inl (Except.ok.inj h).symm⟩
    · have told : ∀ {tooLong : Bool}, (eof && !tooLong) = true → eof = true :=
        fun h => (Bool.and_eq_true_iff.mp h).1
      split at h
      · next result _ =>
        cases result with
        | absorbed list => exact ⟨_, list, told, Or.inl (Except.ok.inj h).symm⟩
        | merged left right bytes list =>
            simp only [settle] at h
            split at h
            · split at h
              · cases h
              · next whole =>
                have fits : bytes.length ≤ r.output.remainingCapacity := by
                  simp only [ByteStream.write_fst, bne_iff_ne, ne_eq, not_not] at whole
                  omega
                exact ⟨_, list, told, Or.inr ⟨bytes, fits, (Except.ok.inj h).symm⟩⟩
            · exact ⟨_, _, told, Or.inl (Except.ok.inj h).symm⟩
      · cases h

/-- **A push undoes nothing**, from any state and with any arguments. -/
theorem pushSubstring_grown {r r' : StreamReassembler} {data : List UInt8} {index : ℕ}
    {eof : Bool} (h : r.pushSubstring data index eof = .ok r') : Grown r r' := by
  rcases pushSubstring_outcome h with rfl | ⟨e, list, -, rfl | ⟨bytes, -, rfl⟩⟩
  · exact grown_refl r'
  · refine Grown.out ?_ e
    exact ⟨rfl, rfl, le_rfl, id⟩
  · refine Grown.out ?_ e
    exact ⟨rfl, rfl, Nat.le_add_right _ _, id⟩

/-- The stream stays sound and `_cur_index` stays the number of bytes written,
from any state and with any arguments. -/
theorem pushSubstring_counted {r r' : StreamReassembler} {data : List UInt8} {index : ℕ}
    {eof : Bool} (h : r.pushSubstring data index eof = .ok r') (inv : r.output.Inv)
    (written : r.output.bytesWritten = r.curIndex) :
    r'.output.Inv ∧ r'.output.bytesWritten = r'.curIndex := by
  have reported : ∀ {t : StreamReassembler} (e : Bool), t.output.Inv →
      t.output.bytesWritten = t.curIndex →
      (t.out e).output.Inv ∧ (t.out e).output.bytesWritten = (t.out e).curIndex := by
    intro t e inv written
    refine ⟨?_, by rw [out_output_bytesWritten, out_curIndex, written]⟩
    rw [out_output]
    split
    · exact inv.endInput
    · exact inv
  rcases pushSubstring_outcome h with rfl | ⟨e, list, -, rfl | ⟨bytes, fits, rfl⟩⟩
  · exact ⟨inv, written⟩
  · exact reported e inv written
  · refine reported e (inv.write bytes) ?_
    rw [ByteStream.write_bytesWritten, Nat.min_eq_left fits, written]

/-- No push touches the error flag. -/
theorem pushSubstring_error {r r' : StreamReassembler} {data : List UInt8} {index : ℕ}
    {eof : Bool} (h : r.pushSubstring data index eof = .ok r') :
    r'.output.error = r.output.error := by
  rcases pushSubstring_outcome h with rfl | ⟨e, list, -, rfl | ⟨bytes, -, rfl⟩⟩
  · rfl
  · rw [out_output_error]
  · rw [out_output_error]
    rfl

/-- A push ends the stream only if its end is announced, now or before. -/
theorem pushSubstring_ended {r r' : StreamReassembler} {data : List UInt8} {index : ℕ}
    {eof : Bool} (h : r.pushSubstring data index eof = .ok r')
    (ended : r'.output.inputIsEnd = true) :
    r.output.inputIsEnd = true ∨ r.eof = true ∨ eof = true := by
  have announced : ∀ {e : Bool} {t : StreamReassembler}, (e = true → eof = true) →
      (t.out e).output.inputIsEnd = true →
      t.output.inputIsEnd = r.output.inputIsEnd → t.eof = r.eof →
      r.output.inputIsEnd = true ∨ r.eof = true ∨ eof = true := by
    intro e t told hout hend heof
    rw [out_inputIsEnd, hend, heof] at hout
    simp only [Bool.or_eq_true, Bool.and_eq_true] at hout
    exact hout.imp_right fun known => known.1.imp_right told
  rcases pushSubstring_outcome h with rfl | ⟨e, list, told, rfl | ⟨bytes, -, rfl⟩⟩
  · exact Or.inl ended
  · exact announced told ended rfl rfl
  · exact announced told ended rfl rfl

/-! ## Outcomes of `push_substring` -/

/-- A full stream ignores every push. -/
theorem Inv.push_full {r : StreamReassembler} (inv : r.Inv) (hcur : r.curIndex < 2 ^ 64)
    (full : r.output.remainingCapacity = 0) (data : List UInt8) (index : ℕ) (eof : Bool) :
    r.pushSubstring data index eof = .ok r := by
  have _ := inv.output
  have hfu : (add64 r.curIndex r.output.remainingCapacity == r.curIndex) = true := by
    rw [beq_iff_eq, full, add64_of_lt (by omega), Nat.add_zero]
  simp only [pushSubstring, hfu, if_true]

/-- **Outcomes of a successful push.** -/
theorem Inv.push_cases {r r' : StreamReassembler} (inv : r.Inv) {data : List UInt8}
    {index : ℕ} {eof : Bool} (hcur : r.curIndex < 2 ^ 64)
    (hlen : index + data.length < 2 ^ 64) (h : r.pushSubstring data index eof = .ok r') :
    (r.output.remainingCapacity = 0 ∧ r' = r) ∨
    (0 < r.output.remainingCapacity ∧
      (index < r.curIndex ∧ index + data.length ≤ r.curIndex) ∧
      Stored r ⟨r.curIndex, []⟩ eof r') ∨
    (0 < r.output.remainingCapacity ∧
      ¬ (index < r.curIndex ∧ index + data.length ≤ r.curIndex) ∧
      Stored r (r.clipped data index) (eof && r.carriesEof data index) r') := by
  rw [inv.pushSubstring_eq hcur hlen] at h
  split at h
  · next full =>
    cases h
    exact Or.inl ⟨full, rfl⟩
  · next free =>
    have hpos : 0 < r.output.remainingCapacity := by omega
    split at h
    · next known =>
      cases h
      refine Or.inr (Or.inl ⟨hpos, known, inv.stored_out (fun i hi => ?_) eof⟩)
      simp only [Chunk.Covers, Chunk.stop, List.length_nil] at hi
      omega
    · next fresh =>
      exact Or.inr (Or.inr ⟨hpos, fresh,
        inv.stored_of_store (Nat.le_max_right _ _)
          (lt_of_le_of_lt (clipped_stop_le fresh) hlen) h⟩)

/-- **A reassembler that stores nothing past its window never throws**, wherever
the next substring lies. -/
theorem Inv.push_succeeds {r : StreamReassembler} (inv : r.Inv) (inWindow : r.InWindow)
    {data : List UInt8} {index : ℕ} (hcur : r.curIndex < 2 ^ 64)
    (hlen : index + data.length < 2 ^ 64) (eof : Bool) :
    ∃ r', r.pushSubstring data index eof = .ok r' := by
  rw [inv.pushSubstring_eq hcur hlen]
  split
  · exact ⟨_, rfl⟩
  split
  · exact ⟨_, rfl⟩
  · next fresh =>
    cases h : r.store (r.clipped data index) (eof && r.carriesEof data index) with
    | ok r' => exact ⟨r', rfl⟩
    | error fault =>
        exfalso
        obtain ⟨-, c', cs, joined, next, long⟩ := inv.store_error h
        have hedge : r.edge = r.curIndex + r.output.remainingCapacity := rfl
        -- only a chunk that starts inside the window can be next in order
        have hin : max index r.curIndex ≤ r.edge := by
          rcases joined.start_eq with heq | ⟨d, hd, heq⟩
          · rw [clipped_start] at heq
            omega
          · have := inv.beyond d hd
            omega
        -- its last byte is a stored one or one of the push, so it is inside too
        have hlast : c'.Covers (c'.stop - 1) := by
          simp only [Chunk.Covers, Chunk.stop]
          omega
        have hbelow : c'.stop - 1 < r.edge := by
          rcases (joined.covers _).mp (Or.inl hlast) with hc | hr
          · have := hc.2
            rw [clipped_stop fresh, if_pos hin] at this
            omega
          · exact inWindow _ hr
        simp only [Chunk.stop] at hbelow
        omega

/-- Reading leaves the list and the end-of-stream flag alone and moves the edge
by what was read. -/
theorem Inv.readOut_eq {r : StreamReassembler} (inv : r.Inv) (len : ℕ) :
    r.readOut len =
      (r.output.str.take len, { r with output := r.output.popOutput len }) := by
  simp only [readOut, inv.output.read_eq len]

/-- Reading leaves the list alone, so the invariant stays. -/
theorem Inv.popOutput {r : StreamReassembler} (inv : r.Inv) (len : ℕ) :
    Inv { r with output := r.output.popOutput len } where
  output := inv.output.popOutput len
  capacity_eq := inv.capacity_eq
  written := inv.written
  nodes := inv.nodes
  separated := inv.separated
  beyond := inv.beyond
  inRange := inv.inRange

/-- Reading only moves the edge forward. -/
theorem Inv.edge_popOutput {r : StreamReassembler} (inv : r.Inv) (len : ℕ) :
    r.edge ≤ edge { r with output := r.output.popOutput len } := by
  rw [inv.edge_eq, (inv.popOutput len).edge_eq]
  simp only [ByteStream.popOutput_bytesRead, ByteStream.popOutput_capacity]
  omega

/-- Marking the stream as broken moves no byte. -/
theorem Inv.setError {r : StreamReassembler} (inv : r.Inv) :
    Inv { r with output := r.output.setError } where
  output := inv.output.setError
  capacity_eq := inv.capacity_eq
  written := inv.written
  nodes := inv.nodes
  separated := inv.separated
  beyond := inv.beyond
  inRange := inv.inRange

/-! ## The list as the source stores it -/

/-- The nodes are sorted, disjoint and never adjacent. -/
theorem Inv.list_sorted {r : StreamReassembler} (inv : r.Inv) :
    r.list.Pairwise fun a b => a.end_ + 1 < b.beg := by
  rw [inv.nodes, List.pairwise_map]
  refine inv.separated.imp_of_mem fun {a b} ha _ hab => ?_
  have := inv.beyond a ha
  have := a.start_le_stop
  simp only [ListNode.ofChunk_end, ListNode.ofChunk_beg]
  omega

/-- A node of the list is a chunk, beyond `_cur_index`, whose last index matches its contents. -/
theorem Inv.node_of_mem {r : StreamReassembler} (inv : r.Inv) {n : ListNode}
    (hn : n ∈ r.list) :
    n.toChunk ∈ r.chunks ∧ r.curIndex < n.beg ∧ n.end_ + 1 = n.beg + n.s.length := by
  have hmem : n.toChunk ∈ r.chunks := List.mem_map_of_mem hn
  rw [inv.nodes] at hn
  obtain ⟨c, hc, rfl⟩ := List.mem_map.mp hn
  have := inv.beyond c hc
  refine ⟨hmem, this, ?_⟩
  simp only [ListNode.ofChunk_end, ListNode.ofChunk_beg, ListNode.ofChunk_s, Chunk.stop]
  omega

end StreamReassembler

end Sponge
