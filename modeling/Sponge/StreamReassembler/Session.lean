import Mathlib.Order.Bounds.Basic
import Mathlib.Order.Interval.Finset.Nat
import Sponge.Library.GuardedRun
import Sponge.StreamReassembler.Push

/-!
# Sessions of pushes and reads

A session is a reassembler together with what an observer has seen of it: the
bytes read so far, the indices that arrived inside the window, and whether an
end-of-stream push was taken.  `Session.step` is one push or one read.

Three results about whole sessions:

* `windowed_session_correct` — pushes that start inside the window are
  reassembled exactly: no call throws, `_cur_index` is the first index missing,
  and the list stores the rest.
* `session_memory_bound` — the memory bound holds as long as no push starts
  **past** the window; `memory_bound_exceeded` is a push that does.
* `session_input_ended_iff` — the stream ends exactly when all of it was written
  and its end was taken, as long as no bare end-of-stream push **overtakes** the
  byte in front of it; `input_ended_early` is one that does.

The last two conditions are where the code departs from its documentation: the
unsigned subtraction in `clip`, and the test at `out` that looks only at whether
stored bytes remain.

### What an observer records

`accepted` is defined by the arguments of the pushes and the edge of the window at the time,
not by what the list stores.  That the two agree is a result (`Exact.accepted_iff`).
`eofTaken` likewise is a condition on the push and the window, and that the reassembler's
own flag agrees with it needs the guard of the last section.

### What the guards are for

`WellTyped` is what the argument types say.  `StartsInWindow` lets everything through that
cannot reach the wrapped subtraction: a full stream returns before it, a push without bytes
has nothing to cut off.  `EofInOrder` is asked only of pushes that report something new to a
stream that is not full.  Each of the two departures has a run under the weaker guard that
breaks the conclusion, right after the theorem, so the guards are not a convenience of the
proof.
-/

namespace Sponge

open Chunks Runs

namespace StreamReassembler

/-- A call on the reassembler or on its output stream. -/
inductive Op where
  | push (data : List UInt8) (index : ℕ) (eof : Bool)
  | read (len : ℕ)
  deriving Repr, DecidableEq

/-- A reassembler and the history of its use.  The history is kept beside the reassembler and read
by no step; it is what the results of this module are stated with. -/
structure Session where
  r : StreamReassembler
  /-- The bytes read from the stream so far. -/
  popped : List UInt8 := []
  /-- The indices covered by some push and below the window's edge at that push. -/
  accepted : Finset ℕ := ∅
  /-- Some end-of-stream push found free capacity and lost no byte of its tail. -/
  eofTaken : Bool := false

namespace Session

/-- A session with nothing pushed. -/
def start (capacity : ℕ) : Session := { r := StreamReassembler.new capacity }

/-- Every byte ever written to the stream, in order. -/
def written (s : Session) : List UInt8 := s.popped ++ s.r.output.str

/-- One call.  A push that throws ends the session. -/
def step (s : Session) : Op → Except Fault Session
  | .push data index eof =>
      match s.r.pushSubstring data index eof with
      | .error fault => .error fault
      | .ok r' => .ok
          { r := r'
            popped := s.popped
            accepted :=
              s.accepted ∪ Finset.Ico index (min (index + data.length) s.r.edge)
            eofTaken := s.eofTaken ||
              (eof && decide (0 < s.r.output.remainingCapacity ∧
                index + data.length ≤ s.r.edge)) }
  | .read len => .ok
      { s with
        r := (s.r.readOut len).2
        popped := s.popped ++ (s.r.readOut len).1 }

/-- A successful push, taken apart. -/
theorem step_push {s s' : Session} {data : List UInt8} {index : ℕ} {eof : Bool}
    (h : s.step (.push data index eof) = .ok s') :
    s.r.pushSubstring data index eof = .ok s'.r ∧ s'.popped = s.popped ∧
      s'.accepted = s.accepted ∪ Finset.Ico index (min (index + data.length) s.r.edge) ∧
      s'.eofTaken = (s.eofTaken || (eof && decide (0 < s.r.output.remainingCapacity ∧
        index + data.length ≤ s.r.edge))) := by
  unfold step at h
  cases hp : s.r.pushSubstring data index eof with
  | error fault => simp [hp] at h
  | ok r' =>
      simp only [hp, Except.ok.injEq] at h
      subst h
      exact ⟨rfl, rfl, rfl, rfl⟩

/-- A read of a sound session. -/
theorem step_read {s s' : Session} (inv : s.r.Inv) {len : ℕ}
    (h : s.step (.read len) = .ok s') :
    s' = { s with
      r := { s.r with output := s.r.output.popOutput len }
      popped := s.popped ++ s.r.output.str.take len } := by
  simp only [step, inv.readOut_eq len, Except.ok.injEq] at h
  exact h.symm

end Session

/-! ## The memory bound -/

namespace Session

/-- The arguments of a call are a `std::string` and a `uint64_t`. -/
def WellTyped : Session → Op → Prop
  | _, .push data index _ => data.length ≤ maxStringSize ∧ index < 2 ^ 64
  | _, .read _ => True

/-- The push finds the stream full, carries no bytes, or starts inside the window
(its end may lie beyond) without leaving the 64-bit range. -/
def StartsInWindow : Session → Op → Prop
  | s, .push data index _ =>
      s.r.output.remainingCapacity = 0 ∨ data = [] ∨
        (index ≤ s.r.edge ∧ index + data.length < 2 ^ 64)
  | _, .read _ => True

instance decidableWellTyped (s : Session) : ∀ op, Decidable (WellTyped s op)
  | .push _ _ _ => inferInstanceAs (Decidable (_ ∧ _))
  | .read _ => inferInstanceAs (Decidable True)

instance decidableStartsInWindow (s : Session) : ∀ op, Decidable (StartsInWindow s op)
  | .push _ _ _ => inferInstanceAs (Decidable (_ ∨ _ ∨ _ ∧ _))
  | .read _ => inferInstanceAs (Decidable True)

/-- The invariant behind the memory bound.  Nothing is stored past the window, and the window
starts where the bytes in the stream end; so the two together fit the capacity. -/
structure Bounded (capacity : ℕ) (s : Session) : Prop where
  inv : s.r.Inv
  inWindow : s.r.InWindow
  capacity_eq : s.r.output.capacity = capacity
  curIndex_lt : s.r.curIndex < 2 ^ 64

/-- Nothing is stored at the start. -/
theorem bounded_start {capacity : ℕ} (h : capacity < 2 ^ 64) :
    Bounded capacity (start capacity) where
  inv := StreamReassembler.inv_new h
  inWindow := by
    intro i hi
    simp [start, StreamReassembler.new, chunks] at hi
  capacity_eq := rfl
  curIndex_lt := by simp [start, StreamReassembler.new]

/-- `_cur_index` stays in range: it only moves over indices that are held. -/
theorem curIndex_lt_of_holds {r r' : StreamReassembler} {data : List UInt8} {index : ℕ}
    (hcur : r.curIndex < 2 ^ 64) (hlen : index + data.length < 2 ^ 64) (inv : r.Inv)
    (holds : r'.Holds (r'.curIndex - 1) →
      r.Holds (r'.curIndex - 1) ∨ r'.curIndex - 1 < index + data.length) :
    r'.curIndex < 2 ^ 64 := by
  by_cases pos : r'.curIndex = 0
  · omega
  · rcases holds (Or.inl (by omega)) with (hlt | ⟨c, hc, _, hupp⟩) | hlt
    · omega
    · have := inv.inRange c hc
      omega
    · omega

/-- One call: a push from inside the window stores nothing past the edge, a read moves the edge.
-/
theorem Bounded.step {capacity : ℕ} {s s' : Session} {op : Op} (h : Bounded capacity s)
    (typed : WellTyped s op) (inside : StartsInWindow s op) (hs : s.step op = .ok s') :
    Bounded capacity s' := by
  cases op with
  | push data index eof =>
      obtain ⟨hp, -, -, -⟩ := step_push hs
      rcases inside with full | inside
      · rw [h.inv.push_full h.curIndex_lt full] at hp
        have heq := Except.ok.inj hp
        exact ⟨heq ▸ h.inv, heq ▸ h.inWindow, heq ▸ h.capacity_eq, heq ▸ h.curIndex_lt⟩
      have hlen : index + data.length < 2 ^ 64 := by
        rcases inside with rfl | ⟨-, hlen⟩
        · simpa using typed.2
        · exact hlen
      have hin : data = [] ∨ index ≤ s.r.edge := inside.imp_right And.left
      have hholds := h.inv.holds_push h.curIndex_lt hlen hin hp
      refine ⟨h.inv.push h.curIndex_lt hlen hp,
        h.inv.inWindow_push h.inWindow h.curIndex_lt hlen hin hp, ?_, ?_⟩
      · rw [← h.capacity_eq]
        exact (pushSubstring_grown hp).capacity
      · refine curIndex_lt_of_holds h.curIndex_lt hlen h.inv fun hi => ?_
        exact ((hholds _).mp hi).imp_right fun ⟨_, hlt, _⟩ => hlt
  | read len =>
      rw [step_read h.inv hs]
      exact ⟨h.inv.popOutput len, h.inv.inWindow_popOutput h.inWindow len, h.capacity_eq,
        h.curIndex_lt⟩

/-- The bytes stored and the bytes buffered fit the capacity. -/
theorem Bounded.memory {capacity : ℕ} {s : Session} (h : Bounded capacity s) :
    s.r.unassembledBytes + s.r.output.bufferSize ≤ capacity := by
  have hsize : size s.r.chunks ≤ s.r.edge - s.r.curIndex := by
    refine h.inv.separated.size_le fun i hi => ⟨?_, h.inWindow i hi⟩
    obtain ⟨c, hc, hlow, -⟩ := hi
    exact (h.inv.beyond c hc).le.trans hlow
  have hrem := h.inv.output.remainingCapacity_eq
  have hcap := h.inv.output.le_capacity
  have heq := h.capacity_eq
  rw [unassembledBytes_eq_size, h.inv.output.bufferSize_eq]
  simp only [edge] at hsize
  omega

/-- **The memory bound, and what a push may store.**  In every session whose
pushes start inside the window, the stored and buffered bytes fit the capacity,
and a push adds no index at or past the edge of the window. -/
theorem session_memory_bound {capacity : ℕ} (hcap : capacity < 2 ^ 64) {s : Session}
    (run : GuardedRun Session.step
      (fun s op => WellTyped s op ∧ StartsInWindow s op) (start capacity) s) :
    s.r.unassembledBytes + s.r.output.bufferSize ≤ capacity ∧
      ∀ data index eof s', WellTyped s (.push data index eof) →
        StartsInWindow s (.push data index eof) →
        s.step (.push data index eof) = .ok s' →
        ∀ i, s'.r.Holds i →
          s.r.Holds i ∨ (index ≤ i ∧ i < index + data.length ∧ i < s.r.edge) := by
  have h : Bounded capacity s :=
    run.invariant (Bounded capacity) (bounded_start hcap) fun s op s' hs guard hstep =>
      hs.step guard.1 guard.2 hstep
  refine ⟨h.memory, fun data index eof s' typed inside hs i hi => ?_⟩
  obtain ⟨hp, -, -, -⟩ := step_push hs
  rcases inside with full | inside
  · rw [h.inv.push_full h.curIndex_lt full] at hp
    exact Or.inl (Except.ok.inj hp ▸ hi)
  · have hlen : index + data.length < 2 ^ 64 := by
      rcases inside with rfl | ⟨-, hlen⟩
      · simpa using typed.2
      · exact hlen
    exact (h.inv.holds_push h.curIndex_lt hlen (inside.imp_right And.left) hp i).mp hi

/-- A push that straddles the edge is cut there. -/
theorem session_memory_bound_straddling :
    ∃ s, execute Session.step (start 2) [.push [97, 98, 99] 1 false] = .ok s ∧
      s.r.unassembledBytes + s.r.output.bufferSize ≤ 2 := by
  obtain ⟨s, done⟩ : ∃ s,
      execute Session.step (start 2) [.push [97, 98, 99] 1 false] = .ok s := ⟨_, rfl⟩
  refine ⟨s, done, (session_memory_bound (by decide) ?_).1⟩
  exact GuardedRun.of_execute (by decide) done

/-- **A push past the window is stored whole.**  With room for one byte, two
bytes pushed at index `5` are kept. -/
theorem memory_bound_exceeded :
    ∃ s, GuardedRun Session.step WellTyped (start 1) s ∧
      ¬ (s.r.unassembledBytes + s.r.output.bufferSize ≤ 1) := by
  obtain ⟨s, done, exceeded⟩ : ∃ s,
      execute Session.step (start 1) [.push [97, 98] 5 false] = .ok s ∧
        ¬ (s.r.unassembledBytes + s.r.output.bufferSize ≤ 1) := ⟨_, rfl, by decide⟩
  exact ⟨s, GuardedRun.of_execute (by decide) done, exceeded⟩

/-! ## Window-respecting pushes -/

/-- The push is an excerpt of `S` that starts inside the window, and neither its
end nor `_cur_index + capacity` overflows. -/
def WindowRespecting (S : List UInt8) : Session → Op → Prop
  | s, .push data index _ =>
      data <+: S.drop index ∧ index ≤ s.r.edge ∧ index + data.length < 2 ^ 64 ∧
        s.r.curIndex + s.r.capacity < 2 ^ 64
  | _, .read _ => True

instance decidableWindowRespecting (S : List UInt8) (s : Session) :
    ∀ op, Decidable (WindowRespecting S s op)
  | .push _ _ _ => inferInstanceAs (Decidable (_ ∧ _))
  | .read _ => inferInstanceAs (Decidable True)

/-- The invariant of window-respecting sessions: what is held is exactly what was
accepted, and it all lies inside the window. -/
structure Exact (S : List UInt8) (s : Session) : Prop where
  faithful : Faithful S s.r s.popped
  inWindow : s.r.InWindow
  accepted_iff : ∀ i, i ∈ s.accepted ↔ s.r.Holds i

/-- At the start nothing is accepted and nothing is held. -/
theorem exact_start (S : List UInt8) {capacity : ℕ} (h : capacity < 2 ^ 64) :
    Exact S (start capacity) where
  faithful := faithful_new S h
  inWindow := (bounded_start h).inWindow
  accepted_iff := by simp [start, Holds, StreamReassembler.new, chunks]

/-- One call: what is held and what is accepted grow by the same indices. -/
theorem Exact.step {S : List UInt8} {s s' : Session} {op : Op} (h : Exact S s)
    (guard : WindowRespecting S s op) (hs : s.step op = .ok s') : Exact S s' := by
  have inv := h.faithful.inv
  cases op with
  | push data index eof =>
      obtain ⟨excerpt, inside, hlen, hover⟩ := guard
      have hcur : s.r.curIndex < 2 ^ 64 := by omega
      obtain ⟨hp, hpop, hacc, -⟩ := step_push hs
      refine ⟨hpop ▸ h.faithful.push hcur hlen excerpt hp,
        inv.inWindow_push h.inWindow hcur hlen (Or.inr inside) hp, fun i => ?_⟩
      rw [hacc, Finset.mem_union, h.accepted_iff, Finset.mem_Ico,
        inv.holds_push hcur hlen (Or.inr inside) hp i, lt_min_iff]
  | read len =>
      refine ⟨?_, ?_, ?_⟩
      · rw [step_read inv hs]
        exact h.faithful.popOutput len
      · rw [step_read inv hs]
        exact inv.inWindow_popOutput h.inWindow len
      · rw [step_read inv hs]
        exact h.accepted_iff

/-- Nothing below `_cur_index` is missing, and `_cur_index` is. -/
theorem Exact.isLeast {S : List UInt8} {s : Session} (h : Exact S s) :
    IsLeast {i | i ∉ s.accepted} s.r.curIndex := by
  have inv := h.faithful.inv
  refine ⟨fun hmem => ?_, fun i hi => ?_⟩
  · rcases (h.accepted_iff _).mp hmem with hlt | ⟨c, hc, hlow, -⟩
    · exact lt_irrefl _ hlt
    · exact absurd (inv.beyond c hc) (not_lt.mpr hlow)
  · by_contra below
    exact hi ((h.accepted_iff i).mpr (Or.inl (not_le.mp below)))

/-- The bytes stored are the indices accepted at or above `_cur_index`. -/
theorem Exact.unassembledBytes_eq {S : List UInt8} {s : Session} (h : Exact S s) :
    s.r.unassembledBytes = (s.accepted.filter (s.r.curIndex ≤ ·)).card := by
  have inv := h.faithful.inv
  rw [unassembledBytes_eq_size, ← inv.separated.card_cells]
  congr 1
  ext i
  rw [mem_cells, Finset.mem_filter, h.accepted_iff]
  constructor
  · rintro ⟨c, hc, hlow, hupp⟩
    exact ⟨Or.inr ⟨c, hc, hlow, hupp⟩, (inv.beyond c hc).le.trans hlow⟩
  · rintro ⟨hlt | hcov, hle⟩
    · exact absurd hlt (not_lt.mpr hle)
    · exact hcov

/-- **Functional correctness for window-respecting pushes.**  Whatever excerpts
of `S` arrive, in whatever order and however often, as long as each starts inside
the window: no call throws, `_cur_index` is the first index that has not arrived,
the stream has been given exactly the bytes of `S` below it, the count of stored
bytes is exact, and the list is sorted, disjoint and never adjacent. -/
theorem windowed_session_correct (S : List UInt8) {capacity : ℕ}
    (hcap : capacity < 2 ^ 64) {s : Session}
    (run : GuardedRun Session.step (WindowRespecting S) (start capacity) s) :
    (∀ op, WindowRespecting S s op → ∃ s', s.step op = .ok s') ∧
    IsLeast {i | i ∉ s.accepted} s.r.curIndex ∧
    (s.r.curIndex ≤ S.length ∧ s.written = S.take s.r.curIndex) ∧
    s.r.unassembledBytes = (s.accepted.filter (s.r.curIndex ≤ ·)).card ∧
    s.r.list.Pairwise (fun a b => a.end_ + 1 < b.beg) ∧
    ∀ n ∈ s.r.list, s.r.curIndex < n.beg ∧ n.end_ + 1 = n.beg + n.s.length ∧
      n.s <+: S.drop n.beg := by
  have h : Exact S s :=
    run.invariant (Exact S) (exact_start S hcap) fun _ _ _ hs guard hstep =>
      hs.step guard hstep
  have inv := h.faithful.inv
  refine ⟨fun op guard => ?_, h.isLeast, ⟨h.faithful.curIndex_le, h.faithful.written_eq⟩,
    h.unassembledBytes_eq, inv.list_sorted, fun n hn => ?_⟩
  · cases op with
    | push data index eof =>
        obtain ⟨-, -, hlen, hover⟩ := guard
        obtain ⟨r', hr⟩ := inv.push_succeeds h.inWindow (by omega) hlen eof
        simp only [Session.step, hr]
        exact ⟨_, rfl⟩
    | read len => exact ⟨_, rfl⟩
  · obtain ⟨hmem, hbeg, hend⟩ := inv.node_of_mem hn
    exact ⟨hbeg, hend, h.faithful.agrees _ hmem⟩

/-- Two excerpts of `abc` in reverse order, with room for all of it. -/
theorem windowed_session_correct_reversed :
    ∃ s, execute Session.step (start 3) [.push [98, 99] 1 true, .push [97] 0 false, .read 2]
        = .ok s ∧
      s.written = [97, 98, 99].take s.r.curIndex := by
  obtain ⟨s, done⟩ : ∃ s, execute Session.step (start 3)
      [.push [98, 99] 1 true, .push [97] 0 false, .read 2] = .ok s := ⟨_, rfl⟩
  have hcap : 3 < 2 ^ 64 := by decide
  refine ⟨s, done, (windowed_session_correct [97, 98, 99] hcap ?_).2.2.1.2⟩
  exact GuardedRun.of_execute (by decide) done

/-! ## The end of the stream -/

/-- The push is an excerpt `S[i..j)` of `S`, and is marked as the end only if
`j` is the length of `S`. -/
def ExcerptsOf (S : List UInt8) : Session → Op → Prop
  | _, .push data index eof =>
      index + data.length ≤ S.length ∧ data <+: S.drop index ∧
        (eof = true → index + data.length = S.length)
  | _, .read _ => True

/-- An end-of-stream push that finds free capacity and reports something new
finds a window that does not overflow, and if it is bare and not past that window it
does not overtake the byte in front of it: that byte is assembled or stored. -/
def EofInOrder : Session → Op → Prop
  | s, .push data index true =>
      0 < s.r.output.remainingCapacity →
      ¬ (index < s.r.curIndex ∧ index + data.length ≤ s.r.curIndex) →
        s.r.edge < 2 ^ 64 ∧ (data = [] → index ≤ s.r.edge →
          index ≤ s.r.curIndex ∨ ∃ n ∈ s.r.list, n.beg < index ∧ index ≤ n.end_ + 1)
  | _, .push _ _ false => True
  | _, .read _ => True

instance decidableExcerptsOf (S : List UInt8) (s : Session) :
    ∀ op, Decidable (ExcerptsOf S s op)
  | .push _ _ _ => inferInstanceAs (Decidable (_ ∧ _))
  | .read _ => inferInstanceAs (Decidable True)

instance decidableEofInOrder (s : Session) : ∀ op, Decidable (EofInOrder s op)
  | .push _ _ true => inferInstanceAs (Decidable (_ → _ → _))
  | .push _ _ false => inferInstanceAs (Decidable True)
  | .read _ => inferInstanceAs (Decidable True)

/-- The invariant of sessions whose end arrives in order.  The flag of the reassembler is then the
one of the history. -/
structure EndKnown (S : List UInt8) (s : Session) : Prop where
  held : EndHeld S s.r s.popped
  eof_eq : s.r.eof = s.eofTaken

/-- One push of a session whose end arrives in order. -/
theorem EndKnown.push {S : List UInt8} {s s' : Session} (hS : S.length < 2 ^ 64)
    (h : EndKnown S s) {data : List UInt8} {index : ℕ} {eof : Bool}
    (excerpt : ExcerptsOf S s (.push data index eof))
    (inOrder : EofInOrder s (.push data index eof))
    (hs : s.step (.push data index eof) = .ok s') : EndKnown S s' := by
  obtain ⟨hbound, hdata, heof⟩ := excerpt
  have inv := h.held.faithful.inv
  have hle := h.held.faithful.curIndex_le
  have hcur : s.r.curIndex < 2 ^ 64 := by omega
  have hlen : index + data.length < 2 ^ 64 := by omega
  obtain ⟨hp, hpop, -, htaken⟩ := step_push hs
  have bare : s.r.BareEofInOrder data index eof := by
    rintro rfl hbare free hedge
    by_cases known : index < s.r.curIndex ∧ index + data.length ≤ s.r.curIndex
    · exact Or.inl known.1.le
    · exact (inOrder free known).2 hbare hedge
  refine ⟨hpop ▸ h.held.push hcur hlen hdata heof bare hp, ?_⟩
  -- the flag is set by exactly the pushes the session counts
  rw [htaken, ← h.eof_eq]
  rcases inv.push_cases hcur hlen hp with
    ⟨full, heq⟩ | ⟨free, known, stored⟩ | ⟨free, fresh, stored⟩
  · rw [heq]
    simp [full]
  · have hin : 0 < s.r.output.remainingCapacity ∧ index + data.length ≤ s.r.edge :=
      ⟨free, known.2.trans (Inv.curIndex_le_edge s.r)⟩
    rw [stored.eof, decide_eq_true hin, Bool.and_true]
  · rw [stored.eof]
    cases eof with
    | false => rfl
    | true =>
        obtain ⟨hrange, -⟩ := inOrder free fresh
        simp only [carriesEof, free, hrange, and_true, true_and]

/-- One call: a read changes neither the end nor what is known of it. -/
theorem EndKnown.step {S : List UInt8} {s s' : Session} {op : Op} (hS : S.length < 2 ^ 64)
    (h : EndKnown S s) (excerpt : ExcerptsOf S s op) (inOrder : EofInOrder s op)
    (hs : s.step op = .ok s') : EndKnown S s' := by
  cases op with
  | push data index eof => exact h.push hS excerpt inOrder hs
  | read len =>
      rw [step_read h.held.faithful.inv hs]
      exact ⟨h.held.popOutput len, h.eof_eq⟩

/-- **End-of-stream exactness**, in every session whose end-of-stream pushes
arrive in order: the stream has ended if and only if all of `S` has been written
and some end-of-stream push was taken whole. -/
theorem session_input_ended_iff (S : List UInt8) (hS : S.length < 2 ^ 64) {capacity : ℕ}
    (hcap : capacity < 2 ^ 64) {s : Session}
    (run : GuardedRun Session.step (fun s op => ExcerptsOf S s op ∧ EofInOrder s op)
      (start capacity) s) :
    s.r.output.inputEnded = true ↔ s.written = S ∧ s.eofTaken = true := by
  have h : EndKnown S s :=
    run.invariant (EndKnown S) ⟨endHeld_new S hcap, rfl⟩ fun _ _ _ hs guard hstep =>
      hs.step hS guard.1 guard.2 hstep
  have hwritten : s.written = S ↔ s.r.curIndex = S.length := by
    rw [written, h.held.faithful.written_eq]
    constructor
    · intro heq
      have := congrArg List.length heq
      have := h.held.faithful.curIndex_le
      rw [List.length_take] at *
      omega
    · intro heq
      rw [heq, List.take_length]
  rw [ByteStream.inputEnded, h.held.ended_iff, hwritten, h.eof_eq, and_comm]

/-- The end arrives with the last bytes, ahead of the first one. -/
theorem session_input_ended_iff_reversed :
    ∃ s, execute Session.step (start 3) [.push [98, 99] 1 true, .push [97] 0 false] = .ok s ∧
      (s.r.output.inputEnded = true ↔ s.written = [97, 98, 99] ∧ s.eofTaken = true) := by
  obtain ⟨s, done⟩ : ∃ s, execute Session.step (start 3)
      [.push [98, 99] 1 true, .push [97] 0 false] = .ok s := ⟨_, rfl⟩
  have hcap : 3 < 2 ^ 64 := by decide
  refine ⟨s, done, session_input_ended_iff [97, 98, 99] (by decide) hcap ?_⟩
  exact GuardedRun.of_execute (by decide) done

/-- **A bare end-of-stream push that overtakes the data ends the stream at once.**
Nothing of `abc` has been written, yet the input has ended. -/
theorem input_ended_early :
    ∃ s, GuardedRun Session.step (ExcerptsOf [97, 98, 99]) (start 8) s ∧
      ¬ (s.r.output.inputEnded = true ↔ s.written = [97, 98, 99] ∧ s.eofTaken = true) := by
  obtain ⟨s, done, early⟩ : ∃ s,
      execute Session.step (start 8) [.push [] 3 true] = .ok s ∧
        ¬ (s.r.output.inputEnded = true ↔ s.written = [97, 98, 99] ∧ s.eofTaken = true) :=
    ⟨_, rfl, by decide⟩
  exact ⟨s, GuardedRun.of_execute (by decide) done, early⟩

end Session

end StreamReassembler

end Sponge
