import Mathlib.Algebra.Order.Ring.Nat
import Mathlib.Data.List.Basic
import Mathlib.Order.Interval.Finset.Nat
import Mathlib.Tactic.Common

/-!
# Chunks of a stream kept in a separated list

A **chunk** is a block of values placed at a position of a stream; it covers
the half-open interval `[start, stop)`.  A store of out-of-order data is a list
of chunks that is **separated**: sorted, pairwise disjoint and never adjacent.

`gather` is the one-pass algorithm that joins a new chunk with everything in
such a list that it overlaps or touches:

* `Gather.held cs` — some chunk of the list already holds the whole of the new
  one, and nothing changes;
* `Gather.joined c cs` — the new chunk has grown to `c` and `cs` is what is left
  of the list.

`gather_result` says which of the two it is and what the result
covers; `place` puts the grown chunk back in order.  Nothing here depends on the
values: `ExcerptOf` records that a chunk agrees with a reference stream and is
carried through both operations.

The two facts that make one pass enough are `gather_of_stop_lt` (a chunk that
ends before the list begins meets nothing) and `gather_of_start_lt` (a chunk that
starts before the whole list only ever grows to the right).

### Why never adjacent

A pass goes from left to right and does not come back.  When the new chunk grows to the left
by a chunk `d`, its start moves to the start of `d`, and what stands in front of `d` has
been passed over by then.  The gap in front of `d` is what keeps the grown chunk from
touching it.  On the right the gap ends the pass: what follows a chunk that reaches further
starts beyond the grown one (`gather_extendRight`).

### Empty chunks

A chunk may hold nothing.  It covers no position and still has a place in the list, where it
can be met by a later pass.  `occupied` leaves such chunks out, and the last section shows
that a pass with a chunk that is not empty cannot tell the difference
(`Separated.gather_occupied`).  A component may therefore store them or not and be compared
with one that does not.
-/

namespace Chunks

universe u

variable {α : Type u}

/-- A block of values at position `start` of a stream. -/
structure Chunk (α : Type u) where
  start : ℕ
  data : List α
  deriving Repr, DecidableEq

namespace Chunk

/-- The first position after the chunk. -/
def stop (c : Chunk α) : ℕ := c.start + c.data.length

/-- The chunk holds the value at position `i`. -/
def Covers (c : Chunk α) (i : ℕ) : Prop := c.start ≤ i ∧ i < c.stop

/-- The chunk's values are those of the stream `S` at the chunk's position. -/
def ExcerptOf (c : Chunk α) (S : List α) : Prop := c.data <+: S.drop c.start

theorem start_le_stop (c : Chunk α) : c.start ≤ c.stop := Nat.le_add_right _ _

/-- Grow `c` to the left by the part of `d` that precedes it. -/
def extendLeft (c d : Chunk α) : Chunk α :=
  ⟨d.start, d.data.take (c.start - d.start) ++ c.data⟩

/-- Grow `c` to the right by the part of `d` that follows it. -/
def extendRight (c d : Chunk α) : Chunk α :=
  ⟨c.start, c.data ++ d.data.drop (c.stop - d.start)⟩

@[simp] theorem extendLeft_start (c d : Chunk α) :
    (c.extendLeft d).start = d.start := rfl

@[simp] theorem extendRight_start (c d : Chunk α) :
    (c.extendRight d).start = c.start := rfl

/-- Growing to the left does not move the right end. -/
theorem extendLeft_stop {c d : Chunk α} (before : d.start ≤ c.start)
    (touching : c.start ≤ d.stop) : (c.extendLeft d).stop = c.stop := by
  simp only [stop, extendLeft, List.length_append, List.length_take] at *
  omega

/-- Growing to the right by a chunk that reaches further ends where that chunk ends. -/
theorem extendRight_stop {c d : Chunk α} (touching : d.start ≤ c.stop)
    (beyond : c.stop ≤ d.stop) : (c.extendRight d).stop = d.stop := by
  simp only [stop, extendRight, List.length_append, List.length_drop] at *
  omega

/-- Two excerpts of one stream that touch join into an excerpt. -/
theorem ExcerptOf.extendLeft {c d : Chunk α} {S : List α} (hc : c.ExcerptOf S)
    (hd : d.ExcerptOf S) (before : d.start ≤ c.start) (touching : c.start ≤ d.stop) :
    (c.extendLeft d).ExcerptOf S := by
  have hlen : c.start - d.start ≤ d.data.length := by
    simp only [stop] at touching
    omega
  have hhead : d.data.take (c.start - d.start) = (S.drop d.start).take (c.start - d.start) := by
    obtain ⟨rest, hrest⟩ := hd
    rw [← hrest, List.take_append_of_le_length hlen]
  have htail : (S.drop d.start).drop (c.start - d.start) = S.drop c.start := by
    rw [List.drop_drop, Nat.add_sub_cancel' before]
  have hsplit := List.take_append_drop (c.start - d.start) (S.drop d.start)
  rw [htail] at hsplit
  obtain ⟨rest, hrest⟩ := hc
  refine ⟨rest, ?_⟩
  simp only [Chunk.extendLeft]
  rw [List.append_assoc, hrest, hhead, hsplit]

/-- The same on the other side. -/
theorem ExcerptOf.extendRight {c d : Chunk α} {S : List α} (hc : c.ExcerptOf S)
    (hd : d.ExcerptOf S) (touching : d.start ≤ c.stop) (beyond : c.stop ≤ d.stop) :
    (c.extendRight d).ExcerptOf S := by
  simp only [stop] at touching beyond
  have hlen : c.stop - d.start ≤ d.data.length := by
    simp only [stop]
    omega
  obtain ⟨rest, hrest⟩ := hd
  have htail : S.drop c.stop = d.data.drop (c.stop - d.start) ++ rest := by
    have hdrop : (S.drop d.start).drop (c.stop - d.start) = S.drop c.stop := by
      rw [List.drop_drop, Nat.add_sub_cancel' (by simpa [stop] using touching)]
    rw [← hdrop, ← hrest, List.drop_append_of_le_length hlen]
  obtain ⟨after, hafter⟩ := hc
  have hcut : after = S.drop c.stop := by
    have := congrArg (List.drop c.data.length) hafter
    rw [List.drop_left, List.drop_drop] at this
    exact this
  refine ⟨rest, ?_⟩
  simp only [Chunk.extendRight]
  rw [List.append_assoc, ← htail, ← hcut, hafter]

/-- Extending the reference stream keeps every excerpt. -/
theorem ExcerptOf.append {c : Chunk α} {S : List α} (h : c.ExcerptOf S) (T : List α) :
    c.ExcerptOf (S ++ T) := by
  by_cases inside : c.start ≤ S.length
  · rw [ExcerptOf, List.drop_append_of_le_length inside]
    exact h.trans (List.prefix_append _ _)
  · have hnil : c.data = [] := by
      rw [ExcerptOf, List.drop_eq_nil_of_le (by omega)] at h
      exact List.prefix_nil.mp h
    rw [ExcerptOf, hnil]
    exact List.nil_prefix

end Chunk

/-- Sorted, pairwise disjoint and never adjacent. -/
def Separated (cs : List (Chunk α)) : Prop :=
  cs.Pairwise fun a b => a.stop < b.start

/-- Some chunk of the list holds position `i`. -/
def Covered (cs : List (Chunk α)) (i : ℕ) : Prop := ∃ c ∈ cs, c.Covers i

@[simp] theorem covered_nil (i : ℕ) : ¬ Covered ([] : List (Chunk α)) i := by
  simp [Covered]

@[simp] theorem covered_cons {c : Chunk α} {cs : List (Chunk α)} {i : ℕ} :
    Covered (c :: cs) i ↔ c.Covers i ∨ Covered cs i := by
  simp [Covered]

/-! ## Gathering -/

/-- The outcome of joining a chunk with a list. -/
inductive Gather (α : Type u) where
  /-- The list already holds the chunk. -/
  | held (cs : List (Chunk α))
  /-- The grown chunk, and the chunks it did not meet. -/
  | joined (c : Chunk α) (cs : List (Chunk α))

/-- Put back a chunk that was passed over. -/
def Gather.keep (d : Chunk α) : Gather α → Gather α
  | .held cs => .held (d :: cs)
  | .joined c cs => .joined c (d :: cs)

/-- **One pass over the list**, growing `c` by every chunk that overlaps or
touches it, and stopping as soon as a chunk holds it entirely. -/
def gather (c : Chunk α) : List (Chunk α) → Gather α
  | [] => .joined c []
  | d :: ds =>
      if d.stop < c.start ∨ c.stop < d.start then (gather c ds).keep d
      else if d.start ≤ c.start ∧ c.stop ≤ d.stop then .held (d :: ds)
      else if c.start ≤ d.start ∧ d.stop ≤ c.stop then gather c ds
      else if d.start < c.start then gather (c.extendLeft d) ds
      else gather (c.extendRight d) ds

/-- What a successful pass delivers: `c` has grown to `c'`, and `cs'` are the chunks of `cs` that
`c'` neither overlaps nor touches.  Together they cover what `c` and `cs` covered. -/
structure Joined (c : Chunk α) (cs : List (Chunk α)) (c' : Chunk α)
    (cs' : List (Chunk α)) : Prop where
  start_le : c'.start ≤ c.start
  le_stop : c.stop ≤ c'.stop
  /-- The left end is the old one or that of a chunk of the list. -/
  start_eq : c'.start = c.start ∨ ∃ d ∈ cs, c'.start = d.start
  /-- The right end is the old one or that of a chunk of the list. -/
  stop_eq : c'.stop = c.stop ∨ ∃ d ∈ cs, c'.stop = d.stop
  sublist : cs'.Sublist cs
  apart : ∀ d ∈ cs', d.stop < c'.start ∨ c'.stop < d.start
  covers : ∀ i, (c'.Covers i ∨ Covered cs' i) ↔ (c.Covers i ∨ Covered cs i)
  excerpt : ∀ S, c.ExcerptOf S → (∀ d ∈ cs, d.ExcerptOf S) → c'.ExcerptOf S

/-- The result of a pass, as a proposition. -/
def Gather.Result (c : Chunk α) (cs : List (Chunk α)) : Gather α → Prop
  | .held cs' => cs' = cs ∧ ∃ d ∈ cs, d.start ≤ c.start ∧ c.stop ≤ d.stop
  | .joined c' cs' => Joined c cs c' cs'

/-- A chunk that meets nothing is joined with nothing. -/
theorem joined_self {c : Chunk α} {cs : List (Chunk α)}
    (apart : ∀ d ∈ cs, d.stop < c.start ∨ c.stop < d.start) : Joined c cs c cs where
  start_le := le_rfl
  le_stop := le_rfl
  start_eq := Or.inl rfl
  stop_eq := Or.inl rfl
  sublist := List.Sublist.refl cs
  apart := apart
  covers := fun _ => Iff.rfl
  excerpt := fun _ h _ => h

/-- A chunk that ends before the list begins meets nothing. -/
theorem gather_of_stop_lt {c : Chunk α} :
    ∀ {cs : List (Chunk α)}, (∀ d ∈ cs, c.stop < d.start) →
      gather c cs = .joined c cs := by
  intro cs
  induction cs with
  | nil => intro _; rfl
  | cons d ds ih =>
      intro before
      rw [gather, if_pos (Or.inr (before d (by simp))),
        ih fun e he => before e (by simp [he])]
      rfl

/-- Everything after the first chunk starts past a gap. -/
theorem Separated.head_lt {d : Chunk α} {ds : List (Chunk α)}
    (sep : Separated (d :: ds)) {e : Chunk α} (he : e ∈ ds) : d.stop < e.start :=
  (List.pairwise_cons.mp sep).1 e he

theorem Separated.tail {d : Chunk α} {ds : List (Chunk α)}
    (sep : Separated (d :: ds)) : Separated ds :=
  (List.pairwise_cons.mp sep).2

/-- A position up to the start of the first chunk is before the start of all others. -/
theorem Separated.lt_of_le_head {d : Chunk α} {ds : List (Chunk α)}
    (sep : Separated (d :: ds)) {x : ℕ} (hx : x ≤ d.start) : ∀ e ∈ ds, x < e.start :=
  fun _ he => hx.trans_lt (d.start_le_stop.trans_lt (sep.head_lt he))

/-- A position before the first chunk is before all of them. -/
theorem Separated.lt_of_lt_head {d : Chunk α} {ds : List (Chunk α)}
    (sep : Separated (d :: ds)) {x : ℕ} (hx : x < d.start) : ∀ e ∈ d :: ds, x < e.start :=
  List.forall_mem_cons.mpr ⟨hx, sep.lt_of_le_head hx.le⟩

/-- Absorbing a chunk that lies inside the new one. -/
theorem Joined.absorb {c d c' : Chunk α} {ds cs' : List (Chunk α)}
    (inside : c.start ≤ d.start ∧ d.stop ≤ c.stop) (h : Joined c ds c' cs') :
    Joined c (d :: ds) c' cs' where
  start_le := h.start_le
  le_stop := h.le_stop
  start_eq := h.start_eq.imp_right fun ⟨e, he, heq⟩ => ⟨e, by simp [he], heq⟩
  stop_eq := h.stop_eq.imp_right fun ⟨e, he, heq⟩ => ⟨e, by simp [he], heq⟩
  sublist := h.sublist.cons d
  apart := h.apart
  covers := by
    intro i
    rw [h.covers i, covered_cons]
    have hd : d.Covers i → c.Covers i := fun ⟨h₁, h₂⟩ =>
      ⟨inside.1.trans h₁, lt_of_lt_of_le h₂ inside.2⟩
    rw [← or_assoc, or_iff_left_of_imp hd]
  excerpt := fun S hc hcs => h.excerpt S hc fun e he => hcs e (by simp [he])

/-- Absorbing a chunk that reaches past the new one on one side: `c₁` is the new
chunk grown by it. -/
theorem Joined.extend (c₁ : Chunk α) {c d c' : Chunk α} {ds cs' : List (Chunk α)}
    (start_le : c₁.start ≤ c.start) (le_stop : c.stop ≤ c₁.stop)
    (start_eq : c₁.start = c.start ∨ c₁.start = d.start)
    (stop_eq : c₁.stop = c.stop ∨ c₁.stop = d.stop)
    (covers : ∀ i, c₁.Covers i ↔ c.Covers i ∨ d.Covers i)
    (excerpt : ∀ S, c.ExcerptOf S → d.ExcerptOf S → c₁.ExcerptOf S)
    (h : Joined c₁ ds c' cs') : Joined c (d :: ds) c' cs' where
  start_le := h.start_le.trans start_le
  le_stop := le_stop.trans h.le_stop
  start_eq := by
    rcases h.start_eq with heq | ⟨e, he, heq⟩
    · rcases start_eq with h₁ | h₁
      · exact Or.inl (heq.trans h₁)
      · exact Or.inr ⟨d, by simp, heq.trans h₁⟩
    · exact Or.inr ⟨e, by simp [he], heq⟩
  stop_eq := by
    rcases h.stop_eq with heq | ⟨e, he, heq⟩
    · rcases stop_eq with h₁ | h₁
      · exact Or.inl (heq.trans h₁)
      · exact Or.inr ⟨d, by simp, heq.trans h₁⟩
    · exact Or.inr ⟨e, by simp [he], heq⟩
  sublist := h.sublist.cons d
  apart := h.apart
  covers := by
    intro i
    rw [h.covers i, covers i, covered_cons, or_assoc]
  excerpt := fun S hc hcs =>
    h.excerpt S (excerpt S hc (hcs d (by simp))) fun e he => hcs e (by simp [he])

/-- A chunk passed over on the left stays in front. -/
theorem Joined.keep {c d c' : Chunk α} {ds cs' : List (Chunk α)}
    (apart : d.stop < c'.start ∨ c'.stop < d.start) (h : Joined c ds c' cs') :
    Joined c (d :: ds) c' (d :: cs') where
  start_le := h.start_le
  le_stop := h.le_stop
  start_eq := h.start_eq.imp_right fun ⟨e, he, heq⟩ => ⟨e, by simp [he], heq⟩
  stop_eq := h.stop_eq.imp_right fun ⟨e, he, heq⟩ => ⟨e, by simp [he], heq⟩
  sublist := h.sublist.cons_cons d
  apart := by
    intro e he
    rcases List.mem_cons.mp he with rfl | he
    · exact apart
    · exact h.apart e he
  covers := by
    intro i
    rw [covered_cons, covered_cons, or_left_comm, h.covers i, or_left_comm]
  excerpt := fun S hc hcs => h.excerpt S hc fun e he => hcs e (by simp [he])

/-- A chunk grown to the right covers what the two covered. -/
theorem extendRight_covers {c d : Chunk α} (after : c.start ≤ d.start)
    (touching : d.start ≤ c.stop) (beyond : c.stop ≤ d.stop) (i : ℕ) :
    (c.extendRight d).Covers i ↔ c.Covers i ∨ d.Covers i := by
  simp only [Chunk.Covers, Chunk.extendRight_stop touching beyond,
    Chunk.extendRight_start]
  omega

/-- A chunk grown to the left covers what the two covered. -/
theorem extendLeft_covers {c d : Chunk α} (before : d.start ≤ c.start)
    (touching : c.start ≤ d.stop) (within : d.stop ≤ c.stop) (i : ℕ) :
    (c.extendLeft d).Covers i ↔ c.Covers i ∨ d.Covers i := by
  simp only [Chunk.Covers, Chunk.extendLeft_stop before touching,
    Chunk.extendLeft_start]
  omega

/-- The step that grows `c` to the right, packaged for both passes below: what
follows `d` in a separated list starts beyond the grown chunk, so the pass ends. -/
theorem gather_extendRight {c d : Chunk α} {ds : List (Chunk α)}
    (sep : Separated (d :: ds)) (after : c.start ≤ d.start)
    (touching : d.start ≤ c.stop) (beyond : c.stop ≤ d.stop) :
    ∃ c', gather (c.extendRight d) ds = .joined c' ds ∧ Joined c (d :: ds) c' ds := by
  have hstop : (c.extendRight d).stop = d.stop := Chunk.extendRight_stop touching beyond
  have hlt : ∀ e ∈ ds, (c.extendRight d).stop < e.start := fun e he =>
    hstop ▸ sep.head_lt he
  refine ⟨c.extendRight d, gather_of_stop_lt hlt, ?_⟩
  refine Joined.extend (c.extendRight d) le_rfl (hstop ▸ beyond) (Or.inl rfl)
    (Or.inr hstop) (extendRight_covers after touching beyond)
    (fun S hc hd => hc.extendRight hd touching beyond) ?_
  exact joined_self fun e he => Or.inr (hlt e he)

/-- **A chunk that starts before the whole list** is never held by it and only
grows to the right. -/
theorem gather_of_start_lt {c : Chunk α} :
    ∀ {cs : List (Chunk α)}, Separated cs → (∀ d ∈ cs, c.start < d.start) →
      ∃ c' cs', gather c cs = .joined c' cs' ∧ Joined c cs c' cs' := by
  intro cs
  induction cs with
  | nil =>
      intro _ _
      exact ⟨c, [], rfl, joined_self (by simp)⟩
  | cons d ds ih =>
      intro sep before
      have hd : c.start < d.start := before d (by simp)
      have hds := d.start_le_stop
      by_cases beyond : c.stop < d.start
      · have hlt := sep.lt_of_lt_head beyond
        exact ⟨c, d :: ds, gather_of_stop_lt hlt,
          joined_self fun e he => Or.inr (hlt e he)⟩
      · have h₁ : ¬ (d.stop < c.start ∨ c.stop < d.start) := by omega
        have h₂ : ¬ (d.start ≤ c.start ∧ c.stop ≤ d.stop) := by omega
        rw [gather, if_neg h₁, if_neg h₂]
        by_cases inside : c.start ≤ d.start ∧ d.stop ≤ c.stop
        · rw [if_pos inside]
          obtain ⟨c', cs', heq, joined⟩ :=
            ih sep.tail fun e he => before e (by simp [he])
          exact ⟨c', cs', heq, joined.absorb inside⟩
        · rw [if_neg inside, if_neg (by omega)]
          obtain ⟨c', heq, joined⟩ :=
            gather_extendRight (c := c) sep hd.le (by omega) (by omega)
          exact ⟨c', ds, heq, joined⟩

/-- A chunk that ends before `c` is passed over. -/
theorem gather_of_stop_lt_start {c d : Chunk α} {ds : List (Chunk α)}
    (sep : Separated (d :: ds)) (before : d.stop < c.start)
    (rest : (gather c ds).Result c ds) : (gather c (d :: ds)).Result c (d :: ds) := by
  have hds := d.start_le_stop
  rw [gather, if_pos (Or.inl before)]
  cases hg : gather c ds with
  | held cs' =>
      rw [hg] at rest
      obtain ⟨rfl, e, he, hin⟩ := rest
      exact ⟨rfl, e, by simp [he], hin⟩
  | joined c' cs' =>
      rw [hg] at rest
      refine Joined.keep (Or.inl ?_) rest
      rcases rest.start_eq with heq | ⟨e, he, heq⟩
      · omega
      · have := sep.head_lt he
        omega

/-- The step that grows `c` to the left: from then on it starts before the rest of the list. -/
theorem gather_extendLeft {c d : Chunk α} {ds : List (Chunk α)}
    (sep : Separated (d :: ds)) (before : d.start ≤ c.start)
    (touching : c.start ≤ d.stop) (within : d.stop ≤ c.stop) :
    ∃ c' cs', gather (c.extendLeft d) ds = .joined c' cs' ∧ Joined c (d :: ds) c' cs' := by
  have hstop := Chunk.extendLeft_stop before touching
  obtain ⟨c', cs', heq, joined⟩ :=
    gather_of_start_lt (c := c.extendLeft d) sep.tail (sep.lt_of_le_head le_rfl)
  exact ⟨c', cs', heq, Joined.extend (c.extendLeft d) before hstop.ge (Or.inr rfl)
    (Or.inl hstop) (extendLeft_covers before touching within)
    (fun S hc hd => hc.extendLeft hd before touching) joined⟩

/-- **Correctness of the pass** over a separated list: either some chunk already
holds the new one and the list is untouched, or the new chunk has been joined
with exactly what it met. -/
theorem gather_result (c : Chunk α) :
    ∀ {cs : List (Chunk α)}, Separated cs → (gather c cs).Result c cs := by
  intro cs
  induction cs with
  | nil =>
      intro _
      exact joined_self (by simp)
  | cons d ds ih =>
      intro sep
      by_cases beyond : c.stop < d.start
      · -- The list is sorted, so `c` ends before all of it.
        have hlt := sep.lt_of_lt_head beyond
        rw [gather_of_stop_lt hlt]
        exact joined_self fun e he => Or.inr (hlt e he)
      by_cases before : d.stop < c.start
      · exact gather_of_stop_lt_start sep before (ih sep.tail)
      rw [gather, if_neg (by omega)]
      by_cases holds : d.start ≤ c.start ∧ c.stop ≤ d.stop
      · rw [if_pos holds]
        exact ⟨rfl, d, by simp, holds⟩
      rw [if_neg holds]
      by_cases inside : c.start ≤ d.start ∧ d.stop ≤ c.stop
      · rw [if_pos inside]
        obtain ⟨c', cs', heq, joined⟩ :=
          gather_of_start_lt (c := c) sep.tail (sep.lt_of_le_head inside.1)
        rw [heq]
        exact joined.absorb inside
      rw [if_neg inside]
      by_cases left : d.start < c.start
      · rw [if_pos left]
        obtain ⟨c', cs', heq, joined⟩ :=
          gather_extendLeft (c := c) sep left.le (by omega) (by omega)
        rw [heq]
        exact joined
      · rw [if_neg left]
        obtain ⟨c', heq, joined⟩ :=
          gather_extendRight (c := c) sep (by omega) (by omega) (by omega)
        rw [heq]
        exact joined

/-! ## Putting the grown chunk back -/

/-- Insert a chunk in front of the first one that starts past its end. -/
def place (c : Chunk α) : List (Chunk α) → List (Chunk α)
  | [] => [c]
  | d :: ds => if c.stop < d.start then c :: d :: ds else d :: place c ds

/-- Placing a chunk adds it and nothing else. -/
theorem mem_place {c e : Chunk α} {cs : List (Chunk α)} :
    e ∈ place c cs ↔ e = c ∨ e ∈ cs := by
  induction cs with
  | nil => simp [place]
  | cons d ds ih =>
      rw [place]
      split
      · simp
      · rw [List.mem_cons, List.mem_cons, ih]
        exact or_left_comm

theorem covered_place {c : Chunk α} {cs : List (Chunk α)} {i : ℕ} :
    Covered (place c cs) i ↔ c.Covers i ∨ Covered cs i := by
  simp [Covered, mem_place]

/-- A chunk that is apart from all others is placed in order. -/
theorem Separated.place {c : Chunk α} {cs : List (Chunk α)} (sep : Separated cs)
    (apart : ∀ d ∈ cs, d.stop < c.start ∨ c.stop < d.start) :
    Separated (place c cs) := by
  induction cs with
  | nil => simp [Chunks.place, Separated]
  | cons d ds ih =>
      rw [Chunks.place]
      split
      · next before =>
        refine List.pairwise_cons.mpr ⟨fun e he => ?_, sep⟩
        rcases List.mem_cons.mp he with rfl | he
        · exact before
        · have := sep.head_lt he
          have := d.start_le_stop
          omega
      · next notBefore =>
        refine List.pairwise_cons.mpr
          ⟨fun e he => ?_, ih sep.tail fun e he => apart e (by simp [he])⟩
        rcases mem_place.mp he with rfl | he
        · exact (apart d (by simp)).resolve_right notBefore
        · exact sep.head_lt he

/-! ## Counting what is covered -/

/-- The number of values the list holds. -/
def size (cs : List (Chunk α)) : ℕ := (cs.map fun c => c.data.length).sum

@[simp] theorem size_cons (c : Chunk α) (cs : List (Chunk α)) :
    size (c :: cs) = c.data.length + size cs := by
  simp [size]

/-- The positions the list covers. -/
def cells : List (Chunk α) → Finset ℕ
  | [] => ∅
  | c :: cs => Finset.Ico c.start c.stop ∪ cells cs

theorem mem_cells {cs : List (Chunk α)} {i : ℕ} : i ∈ cells cs ↔ Covered cs i := by
  induction cs with
  | nil => simp [cells]
  | cons c cs ih => simp [cells, ih, Chunk.Covers]

/-- In a separated list no position is held twice, so the number of values is
the number of positions covered. -/
theorem Separated.card_cells {cs : List (Chunk α)} (sep : Separated cs) :
    (cells cs).card = size cs := by
  induction cs with
  | nil => rfl
  | cons c cs ih =>
      have disjoint : Disjoint (Finset.Ico c.start c.stop) (cells cs) := by
        refine Finset.disjoint_left.mpr fun i hi hcov => ?_
        obtain ⟨d, hd, hlow, -⟩ := mem_cells.mp hcov
        have := sep.head_lt hd
        simp only [Finset.mem_Ico] at hi
        omega
      rw [cells, Finset.card_union_of_disjoint disjoint, ih sep.tail, size_cons]
      simp [Chunk.stop]

/-- A separated list that covers only positions of `[lo, hi)` holds at most as
many values as there are positions between them. -/
theorem Separated.size_le {cs : List (Chunk α)} (sep : Separated cs) {lo hi : ℕ}
    (bounds : ∀ i, Covered cs i → lo ≤ i ∧ i < hi) : size cs ≤ hi - lo := by
  rw [← sep.card_cells, ← Nat.card_Ico]
  exact Finset.card_le_card fun i hi =>
    Finset.mem_Ico.mpr (bounds i (mem_cells.mp hi))

/-- A list that holds no value covers no position. -/
theorem not_covered_of_size_eq_zero {cs : List (Chunk α)} (h : size cs = 0) (i : ℕ) :
    ¬ Covered cs i := by
  induction cs with
  | nil => simp
  | cons c cs ih =>
      rw [size_cons] at h
      rw [covered_cons]
      rintro (hc | hcs)
      · simp only [Chunk.Covers, Chunk.stop] at hc
        omega
      · exact ih (by omega) hcs

/-! ## Leaving the empty chunks out -/

/-- The chunks that hold something. -/
def occupied (cs : List (Chunk α)) : List (Chunk α) := cs.filter fun c => !c.data.isEmpty

@[simp] theorem mem_occupied {c : Chunk α} {cs : List (Chunk α)} :
    c ∈ occupied cs ↔ c ∈ cs ∧ c.data ≠ [] := by
  simp [occupied]

theorem occupied_cons_of_nil {c : Chunk α} (h : c.data = []) (cs : List (Chunk α)) :
    occupied (c :: cs) = occupied cs := by
  simp [occupied, h]

theorem occupied_cons_of_ne {c : Chunk α} (h : c.data ≠ []) (cs : List (Chunk α)) :
    occupied (c :: cs) = c :: occupied cs := by
  simp [occupied, h]

@[simp] theorem occupied_occupied (cs : List (Chunk α)) :
    occupied (occupied cs) = occupied cs := by
  simp [occupied]

theorem Separated.occupied {cs : List (Chunk α)} (sep : Separated cs) :
    Separated (occupied cs) :=
  sep.sublist List.filter_sublist

@[simp] theorem size_occupied (cs : List (Chunk α)) : size (occupied cs) = size cs := by
  induction cs with
  | nil => rfl
  | cons c cs ih =>
      by_cases h : c.data = []
      · rw [occupied_cons_of_nil h, ih, size_cons, h, List.length_nil, Nat.zero_add]
      · rw [occupied_cons_of_ne h, size_cons, size_cons, ih]

theorem Chunk.stop_of_nil {c : Chunk α} (h : c.data = []) : c.stop = c.start := by
  simp [Chunk.stop, h]

theorem Chunk.start_lt_stop {c : Chunk α} (h : c.data ≠ []) : c.start < c.stop :=
  Nat.lt_add_of_pos_right (List.length_pos_iff.mpr h)

/-- A chunk that ends before the list begins is put in front. -/
theorem place_of_stop_lt {c : Chunk α} {cs : List (Chunk α)}
    (before : ∀ d ∈ cs, c.stop < d.start) : place c cs = c :: cs := by
  cases cs with
  | nil => rfl
  | cons d ds => rw [place, if_pos (before d (by simp))]

/-- An empty chunk leaves no trace. -/
theorem occupied_place_of_nil {c : Chunk α} (h : c.data = []) (cs : List (Chunk α)) :
    occupied (place c cs) = occupied cs := by
  induction cs with
  | nil => rw [place, occupied_cons_of_nil h]
  | cons d ds ih =>
      rw [place]
      split
      · rw [occupied_cons_of_nil h]
      · simp only [occupied, List.filter_cons] at ih ⊢
        rw [ih]

/-- A chunk that holds something finds its place among the others that do. -/
theorem Separated.occupied_place {c : Chunk α} (h : c.data ≠ []) {cs : List (Chunk α)}
    (sep : Separated cs) : Chunks.occupied (Chunks.place c cs) = Chunks.place c (Chunks.occupied cs) := by
  induction cs with
  | nil => rw [Chunks.place, occupied_cons_of_ne h]; rfl
  | cons d ds ih =>
      rw [Chunks.place]
      split
      · next before =>
        -- the list is sorted, so every later chunk starts past the end of `c` too
        have later : ∀ e ∈ Chunks.occupied (d :: ds), c.stop < e.start := by
          intro e he
          rcases List.mem_cons.mp (mem_occupied.mp he).1 with rfl | he
          · exact before
          · have := sep.head_lt he
            have := d.start_le_stop
            omega
        rw [occupied_cons_of_ne h, place_of_stop_lt later]
      · next notBefore =>
        by_cases hd : d.data = []
        · rw [occupied_cons_of_nil hd, occupied_cons_of_nil hd, ih sep.tail]
        · rw [occupied_cons_of_ne hd, occupied_cons_of_ne hd, ih sep.tail, Chunks.place,
            if_neg notBefore]

/-- Placing among the occupied chunks or among all of them is the same, up to the
empty ones. -/
theorem Separated.occupied_place_occupied (c : Chunk α) {cs : List (Chunk α)}
    (sep : Separated cs) :
    Chunks.occupied (Chunks.place c (Chunks.occupied cs)) = Chunks.occupied (Chunks.place c cs) := by
  by_cases h : c.data = []
  · rw [occupied_place_of_nil h, occupied_place_of_nil h, occupied_occupied]
  · rw [sep.occupied_place h, sep.occupied.occupied_place h, occupied_occupied]

/-- A chunk that some chunk of the list holds is found there. -/
theorem Separated.gather_of_holds {c d : Chunk α} {cs : List (Chunk α)} (sep : Separated cs)
    (hd : d ∈ cs) (holds : d.start ≤ c.start ∧ c.stop ≤ d.stop) :
    gather c cs = .held cs := by
  induction cs with
  | nil => simp at hd
  | cons e es ih =>
      have := c.start_le_stop
      rcases List.mem_cons.mp hd with rfl | hd
      · rw [gather, if_neg (by omega), if_pos holds]
      · -- an earlier chunk ends before the one that holds `c`
        have := sep.head_lt hd
        rw [gather, if_pos (Or.inl (by omega)), ih sep.tail hd]
        rfl

/-- An empty chunk is held by the list or meets nothing in it. -/
theorem gather_of_nil {c : Chunk α} (h : c.data = []) {cs : List (Chunk α)}
    (sep : Separated cs) : gather c cs = .held cs ∨ gather c cs = .joined c cs := by
  have hstop := Chunk.stop_of_nil h
  induction cs with
  | nil => exact Or.inr rfl
  | cons d ds ih =>
      have := d.start_le_stop
      rw [gather]
      split
      · rcases ih sep.tail with heq | heq
        · exact Or.inl (by rw [heq]; rfl)
        · exact Or.inr (by rw [heq]; rfl)
      · rw [if_pos (by omega)]
        exact Or.inl rfl

/-- The outcome with the empty chunks left out of the list. -/
def Gather.occupied : Gather α → Gather α
  | .held cs => .held (Chunks.occupied cs)
  | .joined c cs => .joined c (Chunks.occupied cs)

/-- An empty chunk that was passed over leaves no trace in the outcome. -/
theorem Gather.occupied_keep_of_nil {d : Chunk α} (h : d.data = []) (g : Gather α) :
    (g.keep d).occupied = g.occupied := by
  cases g <;> simp only [keep, Gather.occupied, occupied_cons_of_nil h]

theorem Gather.occupied_keep_of_ne {d : Chunk α} (h : d.data ≠ []) (g : Gather α) :
    (g.keep d).occupied = g.occupied.keep d := by
  cases g <;> simp only [keep, Gather.occupied, occupied_cons_of_ne h]

/-- **The pass does not see the empty chunks**, provided the new chunk holds
something itself. -/
theorem Separated.gather_occupied {cs : List (Chunk α)} (sep : Separated cs) :
    ∀ {c : Chunk α}, c.data ≠ [] →
      gather c (Chunks.occupied cs) = (gather c cs).occupied := by
  induction cs with
  | nil => intro c _; rfl
  | cons d ds ih =>
      intro c hc
      have hlt := Chunk.start_lt_stop hc
      by_cases hd : d.data = []
      · -- an empty chunk is passed over or absorbed
        have hstop := Chunk.stop_of_nil hd
        rw [occupied_cons_of_nil hd, gather, ih sep.tail hc]
        split
        · rw [Gather.occupied_keep_of_nil hd]
        · rw [if_neg (by omega), if_pos (by omega)]
      · have hds := Chunk.start_lt_stop hd
        rw [occupied_cons_of_ne hd, gather, gather]
        split
        · rw [ih sep.tail hc, Gather.occupied_keep_of_ne hd]
        split
        · simp only [Gather.occupied, occupied_cons_of_ne hd]
        split
        · exact ih sep.tail hc
        split
        · refine ih sep.tail ?_
          simp [Chunk.extendLeft, hc]
        · refine ih sep.tail ?_
          simp [Chunk.extendRight, hc]

end Chunks
