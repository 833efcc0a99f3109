import Sponge.Library.Chunk
import Sponge.ByteStream

/-!
# The stream reassembler

Embedding of `libsponge/stream_reassembler.{hh,cc}`, and the equation that
strips the machine arithmetic from it.

`pushSubstring` is cut along the blocks of the source: `trim` (bytes that were
assembled already), `clip` (bytes that do not fit), `scan` (the loop that merges
with the stored nodes), `insertNode` (the loop that finds the place of the new
node) and `out` (the label every path but one ends at).

A node of the source is an interval `[_beg, _end]` with **both** ends included,
so an empty node has `_end = _beg - 1`.  The proofs read a node as a `Chunk`, the
half-open interval `[_beg, _end + 1)`, and `scan` as the library's `gather`.
`Inv` is the representation invariant and `pushSubstring_eq` the one statement
about `pushSubstring` that later modules use: with no 64-bit overflow in sight,

* a full stream ignores the push,
* a push of known bytes only reports its end-of-stream flag,
* otherwise the clipped chunk is stored, by `store`.

One behaviour survives the translation and is not an artefact of it.  `clip`
computes `first_unavailable - left` in unsigned arithmetic; when the substring
starts past the window the difference wraps around and **nothing is cut off**.

### The shape of the embedding

`goto out` is a function call at the end of each path that takes it.  The loops carry their
variables as arguments, and an iterator that erases the node it stands on is a recursion
that does not put the node back.  All branches of the merging loop are kept, the last one
included, which the source marks as unreachable and which throws; that it is never taken is
part of `scan_eq_gather`.  So is that no `substr` of the loop gets a position past the end
of its string.

### What is proved here and what is not

`pushSubstring_eq` removes the machine arithmetic under two bounds, on `_cur_index` and on
the end of the substring, and under nothing else.  In particular it does not suppose that
the substring starts inside the window.  Every statement about windows is made later, about
`store` and `clipped`, where the wrap-around of `clip` has become an explicit second branch.

The flag that the substring was too long is read off 64-bit sums as well, and a window whose
edge leaves the 64-bit range always reports it: that is the second conjunct of `carriesEof`.
-/

namespace Sponge

open Chunks

/-- The exceptions that leave `push_substring`.  Two of them the source throws itself; the third
comes from the standard library, when an index lies past the end of a string. -/
inductive Fault where
  /-- The branch the author marked unreachable. -/
  | controlFlow
  /-- `ByteStream::write` accepted fewer bytes than it was given. -/
  | shortWrite
  /-- `std::out_of_range`, thrown by `std::string::substr`. -/
  | outOfRange
  deriving Repr, DecidableEq

/-- The text carried by the exception. -/
def Fault.what : Fault → String
  | .controlFlow => "Control flow shouldn't reach here!"
  | .shortWrite => "ByteStream::write() return value not expected."
  | .outOfRange => "basic_string::substr"

/-- `_list_node`: a stored substring with its first and last index.  The source can store an empty
substring, whose last index is then the one below its first. -/
structure ListNode where
  s : List UInt8
  beg : ℕ
  /-- `_end`, the index of the last byte. -/
  end_ : ℕ
  deriving Repr, DecidableEq

/-- `StreamReassembler`.  `curIndex` is the index of the first byte that has not been written to
the stream; the nodes of `list` hold bytes from past it. -/
structure StreamReassembler where
  output : ByteStream
  capacity : ℕ
  curIndex : ℕ := 0
  eof : Bool := false
  list : List ListNode := []
  deriving Repr, DecidableEq

/-- How the merging loop ends: by `goto out` at a node that holds the substring,
or at the end of the list with the merged substring. -/
inductive Scan where
  | absorbed (list : List ListNode)
  | merged (left right : ℕ) (data : List UInt8) (list : List ListNode)
  deriving Repr, DecidableEq

/-- `++it`: the loop leaves a node where it is. -/
def Scan.keep (n : ListNode) : Scan → Scan
  | .absorbed list => .absorbed (n :: list)
  | .merged left right data list => .merged left right data (n :: list)

namespace StreamReassembler

/-- The constructor `StreamReassembler(capacity)`. -/
def new (capacity : ℕ) : StreamReassembler :=
  { output := ByteStream.new capacity, capacity := capacity }

/-- `unassembled_bytes()`: the bytes stored, summed over the list. -/
def unassembledBytes (r : StreamReassembler) : ℕ :=
  (r.list.map fun n => n.s.length).sum

/-- `empty()`: nothing is stored. -/
def empty (r : StreamReassembler) : Bool := r.unassembledBytes == 0

/-- `s.substr(pos, npos)`. -/
def substr (s : List UInt8) (pos : ℕ) : Except Fault (List UInt8) :=
  if s.length < pos then .error .outOfRange else .ok (s.drop pos)

/-- The loop over `_list`, the candidate being `[left, right]` with contents
`data`. -/
def scan (left right : ℕ) (data : List UInt8) : List ListNode → Except Fault Scan
  | [] => .ok (.merged left right data [])
  | n :: rest =>
      -- irrelevant
      if add64 n.end_ 1 < left ∨ n.beg > add64 right 1 then
        (scan left right data rest).map (Scan.keep n)
      -- totally overlapped: the node holds the substring
      else if n.beg ≤ left ∧ n.end_ ≥ right then
        .ok (.absorbed (n :: rest))
      -- totally overlapped: the substring holds the node
      else if n.end_ ≤ right ∧ n.beg ≥ left then
        scan left right data rest
      -- partially overlapped, the node on the left
      else if add64 n.end_ 1 ≥ left ∧ add64 n.end_ 1 ≤ right then
        scan n.beg right (n.s.take (sub64 left n.beg) ++ data) rest
      -- partially overlapped, the node on the right
      else if n.beg ≥ add64 left 1 ∧ n.beg ≤ add64 right 1 then
        match substr n.s (sub64 (add64 right 1) n.beg) with
        | .ok tail => scan left n.end_ (data ++ tail) rest
        | .error e => .error e
      else .error .controlFlow

/-- The loop that inserts the new node in front of the first one that starts
past its end. -/
def insertNode (node : ListNode) : List ListNode → List ListNode
  | [] => [node]
  | n :: rest =>
      if n.beg > add64 node.end_ 1 then node :: n :: rest
      else n :: insertNode node rest

/-- The label `out`. -/
def out (r : StreamReassembler) (shouldSetEof : Bool) : StreamReassembler :=
  let r := if shouldSetEof then { r with eof := true } else r
  if r.eof && r.empty then { r with output := r.output.endInput } else r

/-- Overlap with existing bytes: drop what precedes `_cur_index`.  `none` is the
`goto out` of a substring that lies wholly below it. -/
def trim (r : StreamReassembler) (data : List UInt8) (index : ℕ) :
    Option (ℕ × List UInt8) :=
  if index < r.curIndex then
    if r.curIndex - index ≥ data.length then none
    else some (r.curIndex, data.drop (r.curIndex - index))
  else some (index, data)

/-- Too long to fit in the reassembler: the flag says whether the substring was
found to reach past `first_unavailable`. -/
def clip (firstUnavailable left : ℕ) (data : List UInt8) : Bool × List UInt8 :=
  if add64 left data.length > firstUnavailable then
    (true, data.take (sub64 firstUnavailable left))
  else (false, data)

/-- The part of `push_substring` after the loop: write the merged substring if it
is next in order, store it otherwise. -/
def settle (r : StreamReassembler) (shouldSetEof : Bool) :
    Scan → Except Fault StreamReassembler
  | .absorbed list => .ok ({ r with list := list }.out shouldSetEof)
  | .merged left right data list =>
      if left == r.curIndex then
        let (written, output) := r.output.write data
        if data.length != written then .error .shortWrite
        else
          .ok ({ r with
            output := output
            curIndex := r.curIndex + data.length
            list := list }.out shouldSetEof)
      else
        .ok ({ r with list := insertNode ⟨data, left, right⟩ list }.out shouldSetEof)

/-- `push_substring`. -/
def pushSubstring (r : StreamReassembler) (data : List UInt8) (index : ℕ)
    (eof : Bool) : Except Fault StreamReassembler :=
  let firstUnavailable := add64 r.curIndex r.output.remainingCapacity
  -- ByteStream is full
  if firstUnavailable == r.curIndex then .ok r
  else
    match r.trim data index with
    | none => .ok (r.out eof)
    | some (left, actualData) =>
        let (tooLong, actualData) := clip firstUnavailable left actualData
        let right := sub64 (add64 left actualData.length) 1
        match scan left right actualData r.list with
        | .ok result => r.settle (eof && !tooLong) result
        | .error e => .error e

/-- Reading from `stream_out()`. -/
def readOut (r : StreamReassembler) (len : ℕ) : List UInt8 × StreamReassembler :=
  let (bytes, output) := r.output.read len
  (bytes, { r with output := output })

end StreamReassembler

/-! ## Nodes as chunks -/

/-- The half-open reading of a node. -/
def ListNode.toChunk (n : ListNode) : Chunk UInt8 := ⟨n.beg, n.s⟩

/-- The node that stores a chunk. -/
def ListNode.ofChunk (c : Chunk UInt8) : ListNode := ⟨c.data, c.start, c.stop - 1⟩

@[simp] theorem ListNode.ofChunk_beg (c : Chunk UInt8) :
    (ListNode.ofChunk c).beg = c.start := rfl

@[simp] theorem ListNode.ofChunk_s (c : Chunk UInt8) :
    (ListNode.ofChunk c).s = c.data := rfl

@[simp] theorem ListNode.ofChunk_end (c : Chunk UInt8) :
    (ListNode.ofChunk c).end_ = c.stop - 1 := rfl

@[simp] theorem ListNode.toChunk_ofChunk (c : Chunk UInt8) :
    (ListNode.ofChunk c).toChunk = c := rfl

@[simp] theorem map_toChunk_ofChunk (cs : List (Chunk UInt8)) :
    (cs.map ListNode.ofChunk).map ListNode.toChunk = cs := by
  simp [Function.comp_def]

/-- The library's outcome, read back as the loop's. -/
def Scan.ofGather : Gather UInt8 → Scan
  | .held cs => .absorbed (cs.map ListNode.ofChunk)
  | .joined c cs => .merged c.start (sub64 c.stop 1) c.data (cs.map ListNode.ofChunk)

/-- A node that is left where it is, on either side of the translation. -/
theorem Scan.ofGather_keep (d : Chunk UInt8) (g : Gather UInt8) :
    Scan.ofGather (g.keep d) = (Scan.ofGather g).keep (ListNode.ofChunk d) := by
  cases g <;> rfl

namespace StreamReassembler

/-- The chunks the list stores. -/
def chunks (r : StreamReassembler) : List (Chunk UInt8) := r.list.map ListNode.toChunk

/-- **The loop is `gather`.**  A non-empty position range below `2^64` leaves no
room for wrap-around, the four tests of the source are exhaustive, and `substr`
stays inside its string.

The side condition `0 < c.stop` excludes the one degenerate candidate, an empty
substring at index `0`, for which `right` wraps around to `2^64 - 1`. -/
theorem scan_eq_gather :
    ∀ (cs : List (Chunk UInt8)) (c : Chunk UInt8),
      (∀ d ∈ cs, 0 < d.start ∧ d.stop < 2 ^ 64) → 0 < c.stop → c.stop < 2 ^ 64 →
      scan c.start (sub64 c.stop 1) c.data (cs.map ListNode.ofChunk)
        = .ok (Scan.ofGather (gather c cs)) := by
  intro cs
  induction cs with
  | nil => intro c _ _ _; rfl
  | cons d ds ih =>
      intro c range positive bound
      obtain ⟨hd, hdb⟩ := range d (by simp)
      have hrest : ∀ e ∈ ds, 0 < e.start ∧ e.stop < 2 ^ 64 := fun e he =>
        range e (by simp [he])
      have hds := d.start_le_stop
      have hcs := c.start_le_stop
      have hright : sub64 c.stop 1 = c.stop - 1 := sub64_of_le positive
      have hright1 : add64 (c.stop - 1) 1 = c.stop := by
        rw [add64_of_lt (by omega)]
        omega
      have hend1 : add64 (d.stop - 1) 1 = d.stop := by
        rw [add64_of_lt (by omega)]
        omega
      simp only [List.map_cons, scan, ListNode.ofChunk_beg, ListNode.ofChunk_end,
        ListNode.ofChunk_s, hright, hright1, hend1]
      rw [gather]
      -- the tests of the source in its order; each is one of `gather` once nothing wraps around
      by_cases irrelevant : d.stop < c.start ∨ c.stop < d.start
      · rw [if_pos irrelevant, if_pos irrelevant, ← hright, ih c hrest positive bound,
          Scan.ofGather_keep]
        rfl
      rw [if_neg irrelevant, if_neg irrelevant]
      by_cases holds : d.start ≤ c.start ∧ c.stop ≤ d.stop
      · rw [if_pos holds, if_pos (by omega)]
        rfl
      rw [if_neg holds, if_neg (by omega)]
      by_cases inside : c.start ≤ d.start ∧ d.stop ≤ c.stop
      · rw [if_pos inside, if_pos (by omega), ← hright, ih c hrest positive bound]
      rw [if_neg inside, if_neg (by omega)]
      by_cases left : d.start < c.start
      · rw [if_pos left, if_pos (by omega), sub64_of_le left.le, ← hright]
        have hstop : (c.extendLeft d).stop = c.stop :=
          Chunk.extendLeft_stop left.le (by omega)
        have := ih (c.extendLeft d) hrest (by omega) (by omega)
        rwa [hstop] at this
      · have hleft1 : add64 c.start 1 = c.start + 1 := add64_of_lt (by omega)
        rw [if_neg left, if_neg (by omega), hleft1, if_pos (by omega),
          sub64_of_le (by omega)]
        -- the node reaches past the candidate, so the position given to `substr` is inside it
        have hin : ¬ d.data.length < c.stop - d.start := by
          simp only [Chunk.stop] at *
          omega
        have hstop : (c.extendRight d).stop = d.stop :=
          Chunk.extendRight_stop (by omega) (by omega)
        have := ih (c.extendRight d) hrest (by omega) (by omega)
        rw [hstop, sub64_of_le (by omega)] at this
        simp only [substr, if_neg hin]
        exact this

/-- The degenerate candidate meets nothing. -/
theorem scan_empty_at_zero {list : List ListNode} (h : ∀ n ∈ list, 0 < n.beg) :
    scan 0 (2 ^ 64 - 1) [] list = .ok (.merged 0 (2 ^ 64 - 1) [] list) := by
  induction list with
  | nil => rfl
  | cons n rest ih =>
      have hn : n.beg > add64 (2 ^ 64 - 1) 1 := by
        simpa [add64] using h n (by simp)
      rw [scan, if_pos (Or.inr hn), ih fun m hm => h m (by simp [hm])]
      rfl

/-- The insertion loop is `place`. -/
theorem insertNode_eq_place {c : Chunk UInt8} (positive : 0 < c.stop)
    (bound : c.stop < 2 ^ 64) (cs : List (Chunk UInt8)) :
    insertNode (ListNode.ofChunk c) (cs.map ListNode.ofChunk)
      = (place c cs).map ListNode.ofChunk := by
  have hend1 : add64 (c.stop - 1) 1 = c.stop := by
    rw [add64_of_lt (by omega)]
    omega
  induction cs with
  | nil => rfl
  | cons d ds ih =>
      simp only [List.map_cons, insertNode, ListNode.ofChunk_beg, ListNode.ofChunk_end,
        hend1, place]
      by_cases before : c.stop < d.start
      · rw [if_pos before, if_pos before]
        rfl
      · rw [if_neg before, if_neg before, ih]
        rfl

/-! ## The label `out` -/

/-- `out` can only raise flags: the end-of-stream flag, and the stream's end
flag if the end is known and nothing is stored. -/
theorem out_eq (r : StreamReassembler) (e : Bool) :
    r.out e =
      { r with
        eof := r.eof || e
        output :=
          if (r.eof || e) && r.empty then r.output.endInput else r.output } := by
  unfold out
  cases e <;> simp only [Bool.or_false, Bool.or_true, Bool.false_eq_true, if_false,
    if_true, empty, unassembledBytes] <;> split <;> rfl

@[simp] theorem out_list (r : StreamReassembler) (e : Bool) : (r.out e).list = r.list := by
  rw [out_eq]

@[simp] theorem out_curIndex (r : StreamReassembler) (e : Bool) :
    (r.out e).curIndex = r.curIndex := by
  rw [out_eq]

@[simp] theorem out_capacity (r : StreamReassembler) (e : Bool) :
    (r.out e).capacity = r.capacity := by
  rw [out_eq]

@[simp] theorem out_eof (r : StreamReassembler) (e : Bool) :
    (r.out e).eof = (r.eof || e) := by
  rw [out_eq]

/-- The stream ends at `out` if the end is known and nothing is stored. -/
theorem out_output (r : StreamReassembler) (e : Bool) :
    (r.out e).output =
      if (r.eof || e) && r.empty then r.output.endInput else r.output := by
  rw [out_eq]

@[simp] theorem out_output_str (r : StreamReassembler) (e : Bool) :
    (r.out e).output.str = r.output.str := by
  rw [out_output]
  split <;> rfl

@[simp] theorem out_output_bytesRead (r : StreamReassembler) (e : Bool) :
    (r.out e).output.bytesRead = r.output.bytesRead := by
  rw [out_output]
  split <;> rfl

@[simp] theorem out_output_bytesWritten (r : StreamReassembler) (e : Bool) :
    (r.out e).output.bytesWritten = r.output.bytesWritten := by
  rw [out_output]
  split <;> rfl

@[simp] theorem out_output_capacity (r : StreamReassembler) (e : Bool) :
    (r.out e).output.capacity = r.output.capacity := by
  rw [out_output]
  split <;> rfl

@[simp] theorem out_output_error (r : StreamReassembler) (e : Bool) :
    (r.out e).output.error = r.output.error := by
  rw [out_output]
  split <;> rfl

@[simp] theorem out_chunks (r : StreamReassembler) (e : Bool) :
    (r.out e).chunks = r.chunks := by
  simp [chunks]

/-- The same for the flag alone. -/
theorem out_inputIsEnd (r : StreamReassembler) (e : Bool) :
    (r.out e).output.inputIsEnd
      = (r.output.inputIsEnd || ((r.eof || e) && r.empty)) := by
  rw [out_output]
  split
  · next h => simp [ByteStream.endInput, h]
  · next h => simp only [Bool.not_eq_true] at h; simp [h]

/-- The count of the source is the size of the chunks. -/
theorem unassembledBytes_eq_size (r : StreamReassembler) :
    r.unassembledBytes = size r.chunks := by
  simp [unassembledBytes, size, chunks, ListNode.toChunk, Function.comp_def]

/-! ## The representation invariant -/

/-- **The representation invariant** of the reassembler: the stream is sound,
`_cur_index` counts what was written to it, and the list stores separated chunks
strictly beyond `_cur_index`. -/
structure Inv (r : StreamReassembler) : Prop where
  output : r.output.Inv
  capacity_eq : r.capacity = r.output.capacity
  written : r.output.bytesWritten = r.curIndex
  /-- Every node's last index matches its contents. -/
  nodes : r.list = r.chunks.map ListNode.ofChunk
  separated : Separated r.chunks
  beyond : ∀ c ∈ r.chunks, r.curIndex < c.start
  /-- No stored index comes near the end of the 64-bit range. -/
  inRange : ∀ c ∈ r.chunks, c.stop < 2 ^ 64

/-- A new reassembler stores nothing. -/
theorem inv_new {capacity : ℕ} (h : capacity < 2 ^ 64) : (new capacity).Inv where
  output := ByteStream.inv_new h
  capacity_eq := rfl
  written := rfl
  nodes := rfl
  separated := List.Pairwise.nil
  beyond := by simp [new, chunks]
  inRange := by simp [new, chunks]

/-- The label `out` changes flags only. -/
theorem Inv.out {r : StreamReassembler} (inv : r.Inv) (e : Bool) : (r.out e).Inv where
  output := by
    rw [out_output]
    split
    · exact inv.output.endInput
    · exact inv.output
  capacity_eq := by simpa using inv.capacity_eq
  written := by simpa using inv.written
  nodes := by simpa using inv.nodes
  separated := by simpa using inv.separated
  beyond := by simpa using inv.beyond
  inRange := by simpa using inv.inRange

/-- The exact right edge of the window, `_cur_index + remaining_capacity()`
without wrap-around. -/
def edge (r : StreamReassembler) : ℕ := r.curIndex + r.output.remainingCapacity

/-- The edge is the number of bytes read plus the capacity. -/
theorem Inv.edge_eq {r : StreamReassembler} (inv : r.Inv) :
    r.edge = r.output.bytesRead + r.output.capacity := by
  have hrem := inv.output.remainingCapacity_eq
  have hbal := inv.output.balance
  have hcap := inv.output.le_capacity
  have hwr := inv.written
  rw [edge, hrem]
  omega

/-- What fits the stream is a `size_t`. -/
theorem Inv.remainingCapacity_lt {r : StreamReassembler} (inv : r.Inv) :
    r.output.remainingCapacity < 2 ^ 64 := by
  have hrem := inv.output.remainingCapacity_eq
  have hcap := inv.output.capacity_lt
  omega

/-! ## The equation for `push_substring` -/

/-- What is left of a substring once the assembled bytes and the bytes past the
window are cut off.  A substring that **starts** past the window is left whole:
that is where the subtraction in `clip` wraps around. -/
def clipped (r : StreamReassembler) (data : List UInt8) (index : ℕ) : Chunk UInt8 :=
  let left := max index r.curIndex
  let rest := data.drop (r.curIndex - index)
  ⟨left, if left ≤ r.edge then rest.take (r.edge - left) else rest⟩

@[simp] theorem clipped_start (r : StreamReassembler) (data : List UInt8) (index : ℕ) :
    (r.clipped data index).start = max index r.curIndex := rfl

/-- The bytes of a push that is not wholly known end where the push does, or at
the edge. -/
theorem clipped_stop {r : StreamReassembler} {data : List UInt8} {index : ℕ}
    (fresh : ¬ (index < r.curIndex ∧ index + data.length ≤ r.curIndex)) :
    (r.clipped data index).stop =
      if max index r.curIndex ≤ r.edge then min (index + data.length) r.edge
      else index + data.length := by
  simp only [Chunk.stop, clipped]
  split
  · simp only [List.length_take, List.length_drop]
    omega
  · simp only [List.length_drop]
    omega

/-- Clipping does not make a push longer. -/
theorem clipped_stop_le {r : StreamReassembler} {data : List UInt8} {index : ℕ}
    (fresh : ¬ (index < r.curIndex ∧ index + data.length ≤ r.curIndex)) :
    (r.clipped data index).stop ≤ index + data.length := by
  rw [clipped_stop fresh]
  split <;> omega

/-- A clipped excerpt of a stream is an excerpt of it. -/
theorem clipped_excerptOf {r : StreamReassembler} {data S : List UInt8} {index : ℕ}
    (h : data <+: S.drop index) : (r.clipped data index).ExcerptOf S := by
  have hrest : data.drop (r.curIndex - index) <+: S.drop (max index r.curIndex) := by
    have := h.drop (r.curIndex - index)
    rwa [List.drop_drop, show index + (r.curIndex - index) = max index r.curIndex by omega]
      at this
  unfold Chunk.ExcerptOf clipped
  dsimp only
  split
  · exact (List.take_prefix _ _).trans hrest
  · exact hrest

/-- The list stores the chunks `cs`. -/
def withChunks (r : StreamReassembler) (cs : List (Chunk UInt8)) : StreamReassembler :=
  { r with list := cs.map ListNode.ofChunk }

/-- The bytes `data` are written to the stream, and the list stores `cs`. -/
def advance (r : StreamReassembler) (data : List UInt8) (cs : List (Chunk UInt8)) :
    StreamReassembler :=
  { r with
    output := (r.output.write data).2
    curIndex := r.curIndex + data.length
    list := cs.map ListNode.ofChunk }

@[simp] theorem chunks_withChunks (r : StreamReassembler) (cs : List (Chunk UInt8)) :
    (r.withChunks cs).chunks = cs := map_toChunk_ofChunk cs

@[simp] theorem chunks_advance (r : StreamReassembler) (data : List UInt8)
    (cs : List (Chunk UInt8)) : (r.advance data cs).chunks = cs := map_toChunk_ofChunk cs

/-- Merge a chunk with what is stored, then write it or keep it. -/
def store (r : StreamReassembler) (c : Chunk UInt8) (eof : Bool) :
    Except Fault StreamReassembler :=
  match gather c r.chunks with
  | .held _ => .ok (r.out eof)
  | .joined c cs =>
      if c.start = r.curIndex then
        if c.data.length ≤ r.output.remainingCapacity then
          .ok ((r.advance c.data cs).out eof)
        else .error .shortWrite
      else .ok ((r.withChunks (place c cs)).out eof)

/-- Does the push still carry its end-of-stream flag after clipping? -/
def carriesEof (r : StreamReassembler) (data : List UInt8) (index : ℕ) : Bool :=
  decide (index + data.length ≤ r.edge ∧ r.edge < 2 ^ 64)

/-- The clipping of the source, over exact sums: both the flag and the cut. -/
theorem clip_eq {fu left : ℕ} {data : List UInt8} {cur remaining : ℕ}
    (hfu : fu = add64 cur remaining) (hcur : cur < 2 ^ 64) (hrem : remaining < 2 ^ 64)
    (hleft : cur ≤ left) (hlen : left + data.length < 2 ^ 64) :
    clip fu left data =
      (!decide (left + data.length ≤ cur + remaining ∧ cur + remaining < 2 ^ 64),
        if left ≤ cur + remaining then data.take (cur + remaining - left) else data) := by
  have hadd : add64 left data.length = left + data.length := add64_of_lt hlen
  by_cases hover : cur + remaining < 2 ^ 64
  · rw [add64_of_lt hover] at hfu
    by_cases hlong : left + data.length ≤ fu
    · rw [clip, hadd, if_neg (by omega), if_pos (by omega),
        List.take_of_length_le (by omega)]
      have : fu < 2 ^ 64 := by omega
      rw [← hfu, decide_eq_true ⟨hlong, this⟩]
      rfl
    · rw [clip, hadd, if_pos (by omega)]
      by_cases hin : left ≤ fu
      · rw [sub64_of_le hin, if_pos (by omega), ← hfu]
        simp [hlong]
      · -- the difference wraps around and nothing is cut off
        rw [sub64_of_lt (by omega), if_neg (by omega), List.take_of_length_le (by omega),
          ← hfu]
        simp [hlong]
  · -- the sum wrapped around: it lies below `cur`, and the difference wraps back
    have hfu' : fu = cur + remaining - 2 ^ 64 := by
      rw [hfu, add64, Nat.mod_eq_sub_mod (by omega), Nat.mod_eq_of_lt (by omega)]
    rw [clip, hadd, if_pos (by omega), sub64_of_lt (by omega), if_pos (by omega),
      List.take_of_length_le (by omega), List.take_of_length_le (by omega),
      decide_eq_false (by omega)]
    rfl

/-- Gathering keeps the chunk inside the 64-bit range. -/
theorem Inv.joined_stop_lt {r : StreamReassembler} (inv : r.Inv) {c c' : Chunk UInt8}
    {cs : List (Chunk UInt8)} (bound : c.stop < 2 ^ 64)
    (joined : Joined c r.chunks c' cs) : c'.stop < 2 ^ 64 := by
  rcases joined.stop_eq with heq | ⟨d, hd, heq⟩
  · exact heq ▸ bound
  · exact heq ▸ inv.inRange d hd

/-- The loop followed by the rest of `push_substring` is `store`. -/
theorem Inv.settle_scan {r : StreamReassembler} (inv : r.Inv) {c : Chunk UInt8}
    (hcur : r.curIndex ≤ c.start) (bound : c.stop < 2 ^ 64) (e : Bool) :
    (match scan c.start (sub64 c.stop 1) c.data r.list with
      | .ok result => r.settle e result
      | .error fault => .error fault) = r.store c e := by
  have written : ∀ (d : List UInt8),
      (d.length != (r.output.write d).1) = !decide (d.length ≤ r.output.remainingCapacity) := by
    intro d
    rw [ByteStream.write_fst]
    by_cases fits : d.length ≤ r.output.remainingCapacity
    · simp [fits]
    · have : d.length ≠ min d.length r.output.remainingCapacity := by omega
      simp [fits, this]
  by_cases positive : 0 < c.stop
  · have range : ∀ d ∈ r.chunks, 0 < d.start ∧ d.stop < 2 ^ 64 := fun d hd =>
      ⟨Nat.zero_lt_of_lt (inv.beyond d hd), inv.inRange d hd⟩
    have hscan := scan_eq_gather r.chunks c range positive bound
    rw [← inv.nodes] at hscan
    have result := gather_result c inv.separated
    rw [hscan]
    unfold store
    cases hg : gather c r.chunks with
    | held cs =>
        rw [hg] at result
        obtain ⟨rfl, -⟩ := result
        simp only [Scan.ofGather, settle, ← inv.nodes]
    | joined c' cs =>
        rw [hg] at result
        have hpos : 0 < c'.stop := lt_of_lt_of_le positive result.le_stop
        have hnode : (⟨c'.data, c'.start, sub64 c'.stop 1⟩ : ListNode) = ListNode.ofChunk c' := by
          rw [sub64_of_le hpos]
          rfl
        simp only [Scan.ofGather, settle, hnode, written,
          insertNode_eq_place hpos (inv.joined_stop_lt bound result)]
        by_cases next : c'.start = r.curIndex
        · by_cases fits : c'.data.length ≤ r.output.remainingCapacity <;>
            simp [next, fits, advance]
        · simp [next, withChunks]
  · -- an empty substring at index zero, with nothing assembled yet
    have hstop : c.stop = 0 := by omega
    have hc : c = ⟨0, []⟩ := by
      obtain ⟨start, data⟩ := c
      simp only [Chunk.stop, Nat.add_eq_zero_iff, List.length_eq_zero_iff] at hstop
      simp [hstop]
    have hzero : r.curIndex = 0 := by
      rw [hc] at hcur
      exact Nat.le_zero.mp hcur
    have hlist : ∀ n ∈ r.list, 0 < n.beg := fun n hn =>
      Nat.zero_lt_of_lt (inv.beyond n.toChunk (List.mem_map_of_mem hn))
    have hgather : gather c r.chunks = .joined c r.chunks :=
      gather_of_stop_lt fun d hd => by
        have := inv.beyond d hd
        omega
    rw [store, hgather, hc]
    have hright : sub64 (Chunk.stop ⟨0, ([] : List UInt8)⟩) 1 = 2 ^ 64 - 1 := rfl
    rw [hright, scan_empty_at_zero hlist]
    simp [settle, hzero, advance, ← inv.nodes]

/-- **`push_substring` without machine arithmetic.**  When neither `_cur_index`
nor the end of the substring leaves the 64-bit range, a push is one of three
things: ignored, a report of known bytes, or a `store` of the clipped chunk. -/
theorem Inv.pushSubstring_eq {r : StreamReassembler} (inv : r.Inv) {data : List UInt8}
    {index : ℕ} (hcur : r.curIndex < 2 ^ 64) (hlen : index + data.length < 2 ^ 64)
    (eof : Bool) :
    r.pushSubstring data index eof =
      if r.output.remainingCapacity = 0 then .ok r
      else if index < r.curIndex ∧ index + data.length ≤ r.curIndex then .ok (r.out eof)
      else r.store (r.clipped data index) (eof && r.carriesEof data index) := by
  have hrem := inv.remainingCapacity_lt
  have hfull : (add64 r.curIndex r.output.remainingCapacity == r.curIndex)
      = decide (r.output.remainingCapacity = 0) := by
    rw [Bool.eq_iff_iff, beq_iff_eq, decide_eq_true_iff, add64]
    omega
  unfold pushSubstring
  simp only [hfull, decide_eq_true_eq]
  -- the three exits of the source: a full stream, nothing new, and the merging loop
  by_cases full : r.output.remainingCapacity = 0
  · rw [if_pos full, if_pos full]
  rw [if_neg full, if_neg full]
  by_cases known : index < r.curIndex ∧ index + data.length ≤ r.curIndex
  · rw [if_pos known, trim, if_pos known.1, if_pos (by omega)]
  rw [if_neg known]
  have htrim : r.trim data index
      = some (max index r.curIndex, data.drop (r.curIndex - index)) := by
    unfold trim
    by_cases below : index < r.curIndex
    · rw [if_pos below, if_neg (by omega), Nat.max_eq_right (by omega)]
    · rw [if_neg below, Nat.max_eq_left (by omega), Nat.sub_eq_zero_of_le (by omega),
        List.drop_zero]
  have hend : max index r.curIndex + (data.drop (r.curIndex - index)).length
      = index + data.length := by
    rw [List.length_drop]
    omega
  have hclip : clip (add64 r.curIndex r.output.remainingCapacity) (max index r.curIndex)
      (data.drop (r.curIndex - index))
        = (!r.carriesEof data index, (r.clipped data index).data) := by
    rw [clip_eq rfl hcur hrem (Nat.le_max_right index r.curIndex) (by omega), hend]
    rfl
  have hstart : r.curIndex ≤ (r.clipped data index).start := Nat.le_max_right _ _
  have hbound : (r.clipped data index).stop < 2 ^ 64 :=
    lt_of_le_of_lt (clipped_stop_le known) hlen
  have hright : add64 (max index r.curIndex) (r.clipped data index).data.length
      = (r.clipped data index).stop := add64_of_lt hbound
  rw [← inv.settle_scan hstart hbound, htrim]
  simp only [hclip, hright, Bool.not_not, clipped_start]

end StreamReassembler

end Sponge
