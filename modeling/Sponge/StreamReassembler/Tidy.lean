import Sponge.StreamReassembler.Store

/-!
# Reassemblers that differ in empty nodes

A push of no bytes past the next index leaves a node without contents in the list.
Such nodes are never read and never counted: `tidy` leaves them out, and
`Inv.pushSubstring_tidy` says that **no push can tell a reassembler from its tidy
form**.  Two reassemblers with the same tidy form therefore stay alike, whatever
arrives later.

### Why tidy forms

A duplicate segment, or one outside the window, should leave a reassembler as it was.  Taken
literally that is false: a push of no bytes, or one whose bytes are all cut off, puts an
empty node into the list.  The node has no influence on anything that is ever read, but it
is there, so *unchanged* has to be said up to such nodes.  `tidy` picks one representative,
and equality of tidy forms is preserved by every push and every read.

### Which pushes leave no trace

`Unseen` is that statement for one push, and the last three results decide it for the pushes
that have nothing to contribute: bytes that are known, bytes that are cut off, bytes past
the edge.  The last of them can be seen, because they are stored whole; so the exact
condition is that a node holds them already.  `Settled` is the companion invariant that
makes a repeated report of the end invisible too.
-/

namespace Sponge

open Chunks

namespace StreamReassembler

/-- The reassembler without the nodes that hold nothing. -/
def tidy (r : StreamReassembler) : StreamReassembler :=
  { r with list := r.list.filter fun n => !n.s.isEmpty }

@[simp] theorem tidy_output (r : StreamReassembler) : r.tidy.output = r.output := rfl

@[simp] theorem tidy_curIndex (r : StreamReassembler) : r.tidy.curIndex = r.curIndex := rfl

@[simp] theorem tidy_eof (r : StreamReassembler) : r.tidy.eof = r.eof := rfl

@[simp] theorem chunks_tidy (r : StreamReassembler) : r.tidy.chunks = occupied r.chunks := by
  simp [chunks, tidy, occupied, List.filter_map, Function.comp_def, ListNode.toChunk]

@[simp] theorem tidy_tidy (r : StreamReassembler) : r.tidy.tidy = r.tidy := by
  simp [tidy]

@[simp] theorem tidy_unassembledBytes (r : StreamReassembler) :
    r.tidy.unassembledBytes = r.unassembledBytes := by
  rw [unassembledBytes_eq_size, unassembledBytes_eq_size, chunks_tidy, size_occupied]

/-- The label `out` counts bytes, and empty nodes have none. -/
theorem tidy_out (r : StreamReassembler) (e : Bool) : (r.out e).tidy = r.tidy.out e := by
  have hempty : r.tidy.empty = r.empty := by rw [empty, empty, tidy_unassembledBytes]
  rw [out_eq, out_eq, hempty]
  rfl

/-- Filtering nodes is filtering chunks. -/
theorem map_ofChunk_tidy (cs : List (Chunk UInt8)) :
    (cs.map ListNode.ofChunk).filter (fun n => !n.s.isEmpty)
      = (occupied cs).map ListNode.ofChunk := by
  simp [occupied, List.filter_map, Function.comp_def]

theorem tidy_withChunks (r : StreamReassembler) (cs : List (Chunk UInt8)) :
    (r.withChunks cs).tidy = r.withChunks (occupied cs) := by
  simp only [tidy, withChunks, map_ofChunk_tidy]

theorem tidy_advance (r : StreamReassembler) (data : List UInt8) (cs : List (Chunk UInt8)) :
    (r.advance data cs).tidy = r.advance data (occupied cs) := by
  simp only [tidy, advance, map_ofChunk_tidy]

/-- Under the invariant the list is given by its chunks. -/
theorem Inv.tidy_eq {r : StreamReassembler} (inv : r.Inv) :
    r.tidy = r.withChunks (occupied r.chunks) := by
  have heq : r = r.withChunks r.chunks := by
    rw [withChunks, ← inv.nodes]
  calc r.tidy = (r.withChunks r.chunks).tidy := by rw [← heq]
    _ = r.withChunks (occupied r.chunks) := tidy_withChunks r r.chunks

/-- Leaving nodes out keeps the list sorted and apart. -/
theorem Inv.tidy {r : StreamReassembler} (inv : r.Inv) : r.tidy.Inv where
  output := inv.output
  capacity_eq := inv.capacity_eq
  written := inv.written
  nodes := by
    rw [chunks_tidy, inv.tidy_eq]
    rfl
  separated := by
    rw [chunks_tidy]
    exact inv.separated.occupied
  beyond := by
    intro c hc
    rw [chunks_tidy] at hc
    exact inv.beyond c (mem_occupied.mp hc).1
  inRange := by
    intro c hc
    rw [chunks_tidy] at hc
    exact inv.inRange c (mem_occupied.mp hc).1

/-! ## Storing -/

/-- An empty chunk only reports its end-of-stream flag. -/
theorem Inv.store_of_nil {r : StreamReassembler} (inv : r.Inv) {c : Chunk UInt8}
    (hc : c.data = []) (e : Bool) :
    (r.store c e).map StreamReassembler.tidy = .ok (r.tidy.out e) := by
  unfold store
  rcases gather_of_nil hc inv.separated with heq | heq
  · rw [heq]
    exact congrArg Except.ok (tidy_out r e)
  · have hwrite : (r.output.write []).2 = r.output := by
      simp [ByteStream.write]
    rw [heq]
    simp only
    split
    · have fits : c.data.length ≤ r.output.remainingCapacity := by
        rw [hc]
        exact Nat.zero_le _
      rw [if_pos fits, hc]
      refine congrArg Except.ok ?_
      rw [tidy_out, tidy_advance, advance, hwrite, inv.tidy_eq]
      rfl
    · refine congrArg Except.ok ?_
      rw [tidy_out, tidy_withChunks, occupied_place_of_nil hc, inv.tidy_eq]

/-- Storing does not see the empty nodes. -/
theorem Inv.store_tidy {r : StreamReassembler} (inv : r.Inv) (c : Chunk UInt8) (e : Bool) :
    (r.store c e).map StreamReassembler.tidy
      = (r.tidy.store c e).map StreamReassembler.tidy := by
  by_cases hc : c.data = []
  · rw [inv.store_of_nil hc, inv.tidy.store_of_nil hc, tidy_tidy]
  unfold store
  rw [chunks_tidy, inv.separated.gather_occupied hc]
  have result := gather_result c inv.separated
  cases hg : gather c r.chunks with
  | held cs =>
      refine congrArg Except.ok ?_
      rw [tidy_out, tidy_out, tidy_tidy]
  | joined c' cs =>
      rw [hg] at result
      simp only [Gather.occupied]
      by_cases next : c'.start = r.curIndex
      · have next' : c'.start = r.tidy.curIndex := next
        rw [if_pos next, if_pos next']
        by_cases fits : c'.data.length ≤ r.output.remainingCapacity
        · have fits' : c'.data.length ≤ r.tidy.output.remainingCapacity := fits
          rw [if_pos fits, if_pos fits']
          refine congrArg Except.ok ?_
          rw [tidy_out, tidy_out, tidy_advance, tidy_advance, occupied_occupied]
          rfl
        · have long : ¬ c'.data.length ≤ r.tidy.output.remainingCapacity := fits
          rw [if_neg fits, if_neg long]
      · have later : ¬ c'.start = r.tidy.curIndex := next
        rw [if_neg next, if_neg later]
        refine congrArg Except.ok ?_
        rw [tidy_out, tidy_out, tidy_withChunks, tidy_withChunks,
          (inv.rest result).1.occupied_place_occupied]
        rfl

/-- **No push can tell a reassembler from its tidy form.**  Empty nodes are stored by pushes
without bytes; they take part in the merging loop, but leave no trace in what it makes of the
others. -/
theorem Inv.pushSubstring_tidy {r : StreamReassembler} (inv : r.Inv) {data : List UInt8}
    {index : ℕ} (hcur : r.curIndex < 2 ^ 64) (hlen : index + data.length < 2 ^ 64)
    (eof : Bool) :
    (r.pushSubstring data index eof).map StreamReassembler.tidy
      = (r.tidy.pushSubstring data index eof).map StreamReassembler.tidy := by
  have same : r.tidy.pushSubstring data index eof =
      if r.output.remainingCapacity = 0 then .ok r.tidy
      else if index < r.curIndex ∧ index + data.length ≤ r.curIndex then
        .ok (r.tidy.out eof)
      else r.tidy.store (r.clipped data index) (eof && r.carriesEof data index) :=
    inv.tidy.pushSubstring_eq hcur hlen eof
  rw [inv.pushSubstring_eq hcur hlen, same]
  by_cases full : r.output.remainingCapacity = 0
  · rw [if_pos full, if_pos full]
    exact congrArg Except.ok (tidy_tidy r).symm
  rw [if_neg full, if_neg full]
  by_cases known : index < r.curIndex ∧ index + data.length ≤ r.curIndex
  · rw [if_pos known, if_pos known]
    refine congrArg Except.ok ?_
    rw [tidy_out, tidy_out, tidy_tidy]
  · rw [if_neg known, if_neg known]
    exact inv.store_tidy _ _

/-- Nor can a read. -/
theorem readOut_tidy (r : StreamReassembler) (len : ℕ) :
    (r.tidy.readOut len).2 = (r.readOut len).2.tidy := rfl

/-! ## Pushes outside the window -/

/-- The end is reported once: a known end of a store without contents has ended the
stream. -/
def Settled (r : StreamReassembler) : Prop :=
  r.eof = true → r.empty = true → r.output.inputIsEnd = true

/-- Every path that ends at `out` is settled. -/
theorem settled_out (r : StreamReassembler) (e : Bool) : (r.out e).Settled := by
  intro known nothing
  rw [out_ended, known, nothing]
  exact Bool.or_true _

/-- A push ends at `out` or changes nothing. -/
theorem pushSubstring_settled {r r' : StreamReassembler} {data : List UInt8} {index : ℕ}
    {eof : Bool} (settled : r.Settled) (h : r.pushSubstring data index eof = .ok r') :
    r'.Settled := by
  rcases pushSubstring_outcome h with rfl | ⟨e, list, -, rfl | ⟨bytes, -, rfl⟩⟩
  · exact settled
  · exact settled_out _ e
  · exact settled_out _ e

/-- A report that brings no news changes nothing. -/
theorem Settled.out_eq_self {r : StreamReassembler} (settled : r.Settled) {e : Bool}
    (known : e = true → r.eof = true) : r.out e = r := by
  have heof : (r.eof || e) = r.eof := by
    cases e with
    | false => exact Bool.or_false _
    | true => rw [known rfl]; rfl
  rw [out_eq, heof]
  split
  · next ended =>
    obtain ⟨hknown, hempty⟩ := Bool.and_eq_true_iff.mp ended
    have hend := settled hknown hempty
    rw [ByteStream.endInput, ← hend]
  · rfl

/-- A substring at the right edge is cut down to nothing. -/
theorem clipped_at_edge {r : StreamReassembler} (data : List UInt8) {index : ℕ}
    (at_edge : index = r.edge) : (r.clipped data index).data = [] := by
  have hcur : r.curIndex ≤ r.edge := Nat.le_add_right _ _
  have hmax : max index r.curIndex = r.edge := by omega
  simp [clipped, hmax]

/-- A substring past the right edge is left whole. -/
theorem clipped_past_edge {r : StreamReassembler} (data : List UInt8) {index : ℕ}
    (past : r.edge < index) : r.clipped data index = ⟨index, data⟩ := by
  have hcur : r.curIndex ≤ r.edge := Nat.le_add_right _ _
  have hmax : max index r.curIndex = index := by omega
  have hdrop : r.curIndex - index = 0 := by omega
  simp [clipped, hmax, hdrop, past]

/-- A chunk that no node holds makes a difference: it is in the list afterwards. -/
theorem Inv.store_new {r : StreamReassembler} (inv : r.Inv) {c : Chunk UInt8}
    (hc : c.data ≠ []) (beyond : r.curIndex < c.start)
    (fresh : ¬ ∃ d ∈ r.chunks, d.start ≤ c.start ∧ c.stop ≤ d.stop) (e : Bool) :
    ∃ r', r.store c e = .ok r' ∧ r'.tidy ≠ r.tidy := by
  have result := gather_result c inv.separated
  unfold store
  cases hg : gather c r.chunks with
  | held cs =>
      rw [hg] at result
      exact absurd result.2 fresh
  | joined c' cs =>
      rw [hg] at result
      have later : c'.start ≠ r.curIndex := by
        rcases result.start_eq with heq | ⟨d, hd, heq⟩
        · omega
        · have := inv.beyond d hd
          omega
      simp only [if_neg later]
      refine ⟨_, rfl, fun same => fresh ⟨c', ?_, result.start_le, result.le_stop⟩⟩
      -- the grown chunk holds something, so it is in the tidy list: the old one too
      have occupiedHere : c'.data ≠ [] := by
        intro hnil
        have := Chunk.stop_of_nil hnil
        have := Chunk.start_lt_stop hc
        have := result.start_le
        have := result.le_stop
        omega
      have placed : c' ∈ occupied (place c' cs) :=
        mem_occupied.mpr ⟨mem_place.mpr (Or.inl rfl), occupiedHere⟩
      have chunksSame := congrArg chunks same
      rw [chunks_tidy, chunks_tidy, out_chunks, chunks_withChunks] at chunksSame
      rw [chunksSame] at placed
      exact (mem_occupied.mp placed).1

/-- The push succeeds and leaves no trace but an empty node. -/
def Unseen (r : StreamReassembler) (data : List UInt8) (index : ℕ) (eof : Bool) : Prop :=
  ∃ r', r.pushSubstring data index eof = .ok r' ∧ r'.tidy = r.tidy

section Outside

variable {r : StreamReassembler} {data : List UInt8} {index : ℕ}

/-- A push whose outcome is a report of the end goes unseen if the end was known. -/
theorem Settled.unseen_iff (settled : r.Settled) {eof e : Bool}
    (h : (r.pushSubstring data index eof).map StreamReassembler.tidy = .ok (r.tidy.out e)) :
    r.Unseen data index eof ↔ (e = true → r.eof = true) := by
  constructor
  · rintro ⟨r', pushed, same⟩ reported
    rw [pushed] at h
    have hout : r'.tidy = r.tidy.out e := Except.ok.inj h
    rw [same] at hout
    have heof := congrArg StreamReassembler.eof hout
    rw [tidy_eof, out_eof, tidy_eof, reported, Bool.or_true] at heof
    exact heof
  · intro known
    cases pushed : r.pushSubstring data index eof with
    | error fault => rw [pushed] at h; cases h
    | ok r' =>
        rw [pushed] at h
        refine ⟨r', pushed, ?_⟩
        have hout : r'.tidy = r.tidy.out e := Except.ok.inj h
        rw [hout, ← tidy_out, settled.out_eq_self known]

/-- **Known bytes** report their end-of-stream flag. -/
theorem Inv.unseen_below_iff (inv : r.Inv) (settled : r.Settled)
    (hcur : r.curIndex < 2 ^ 64) (hlen : index + data.length < 2 ^ 64)
    (free : r.output.remainingCapacity ≠ 0)
    (known : index < r.curIndex ∧ index + data.length ≤ r.curIndex) (eof : Bool) :
    r.Unseen data index eof ↔ (eof = true → r.eof = true) := by
  refine settled.unseen_iff ?_
  rw [inv.pushSubstring_eq hcur hlen, if_neg free, if_pos known]
  exact congrArg Except.ok (tidy_out r eof)

/-- **Bytes from the edge on, all of them cut off**: the end-of-stream flag is reported
if there were none and they stood at the edge. -/
theorem Inv.unseen_cut_iff (inv : r.Inv) (settled : r.Settled)
    (hcur : r.curIndex < 2 ^ 64) (hlen : index + data.length < 2 ^ 64)
    (free : r.output.remainingCapacity ≠ 0) (outside : r.edge ≤ index)
    (cut : index = r.edge ∨ data = []) (eof : Bool) :
    r.Unseen data index eof ↔
      (eof = true ∧ index = r.edge ∧ data = [] → r.eof = true) := by
  have hedge : r.curIndex ≤ r.edge := Nat.le_add_right _ _
  have fresh : ¬ (index < r.curIndex ∧ index + data.length ≤ r.curIndex) := by omega
  have nothing : (r.clipped data index).data = [] := by
    rcases outside.eq_or_lt with at_edge | past
    · exact clipped_at_edge data at_edge.symm
    · rw [clipped_past_edge data past]
      exact cut.resolve_left past.ne'
  have carried : (eof && r.carriesEof data index) = true
      ↔ eof = true ∧ index = r.edge ∧ data = [] := by
    rw [Bool.and_eq_true_iff, carriesEof, decide_eq_true_iff, ← List.length_eq_zero_iff]
    refine and_congr_right fun _ => ?_
    omega
  rw [← carried]
  refine settled.unseen_iff ?_
  rw [inv.pushSubstring_eq hcur hlen, if_neg free, if_neg fresh]
  exact inv.store_of_nil nothing _

/-- **Bytes from past the edge** go unseen if some node already holds them. -/
theorem Inv.unseen_past_iff (inv : r.Inv) (settled : r.Settled)
    (hcur : r.curIndex < 2 ^ 64) (hlen : index + data.length < 2 ^ 64)
    (free : r.output.remainingCapacity ≠ 0) (past : r.edge < index) (some : data ≠ [])
    (eof : Bool) :
    r.Unseen data index eof ↔
      ∃ n ∈ r.list, n.beg ≤ index ∧ index + data.length ≤ n.beg + n.s.length := by
  have hedge : r.curIndex ≤ r.edge := Nat.le_add_right _ _
  have fresh : ¬ (index < r.curIndex ∧ index + data.length ≤ r.curIndex) := by omega
  have unreported : (eof && r.carriesEof data index) = false := by
    rw [carriesEof, decide_eq_false (by omega), Bool.and_false]
  have hpush : r.pushSubstring data index eof = r.store ⟨index, data⟩ false := by
    rw [inv.pushSubstring_eq hcur hlen, if_neg free, if_neg fresh,
      clipped_past_edge data past, unreported]
  rw [Unseen, hpush]
  constructor
  · rintro ⟨r', stored, same⟩
    by_contra none
    have new : ¬ ∃ d ∈ r.chunks, d.start ≤ (⟨index, data⟩ : Chunk UInt8).start ∧
        (⟨index, data⟩ : Chunk UInt8).stop ≤ d.stop := by
      rintro ⟨d, hd, hstart, hstop⟩
      obtain ⟨n, hn, rfl⟩ := List.mem_map.mp hd
      exact none ⟨n, hn, hstart, hstop⟩
    obtain ⟨r₁, stored₁, differs⟩ := inv.store_new some (by simp only; omega) new false
    rw [stored₁] at stored
    cases stored
    exact differs same
  · rintro ⟨n, hn, hbeg, hend⟩
    have held := inv.separated.gather_of_holds (c := ⟨index, data⟩)
      (inv.node_of_mem hn).1 ⟨hbeg, hend⟩
    refine ⟨r.out false, by rw [store, held], ?_⟩
    rw [settled.out_eq_self fun h => by cases h]

end Outside

end StreamReassembler

end Sponge
