import Sponge.Network.FlowControl

/-!
# A network that does not reorder

A network that loses and repeats segments, but delivers none after one that was sent later,
delivers no stale acknowledgment: a connection acknowledges more and more, so of two segments the
one sent later points further (`Rising.sorted`), and `_una_seqno` is at most where the last one
delivered points (`Rising.ahead`).

`inOrder_never_fails` is the result.  It is about **every** list of operations in which the
deliveries to each side are in order, and says that the list runs to its end: no call of an owner
and no delivery throws.

### From a condition on runs to a condition on networks

`never_fails` asks of each delivery that its acknowledgment is not stale, which depends on
the state it meets.  Here the condition is on the list of operations alone and can be read
off the schedule.  The step from one to the other is that acknowledgments are sent in rising
order, so that a delivery in order brings one that points at least as far as the last.

`reached` is how far the deliveries to each side have come.  It is part of the invariant and
not of the network, since the network does not keep it.  A segment may be delivered again at
once, which is why the order is not strict.
-/

namespace Sponge

open Runs TCPSender

namespace Host

variable {h h' p p' : Host} {op : TCPConnection.Op} {seg : TCPSegment} {k : ℕ}

/-! ## One direction -/

theorem emitted_of_wire {i : ℕ} (hseg : h.wire[i]? = some seg) : h.emitted[i]? = some seg := by
  rw [emitted, List.getElem?_append_left (List.getElem?_eq_some_iff.mp hseg).1]
  exact hseg

/-- Where the acknowledgment of a segment points in the stream of `p`. -/
def pointed (p : Host) (seg : TCPSegment) : ℕ := unwrap seg.header.ackno p.conn.sender.isn 0

/-- The acknowledgments that `h` sends rise, and those from the `k`-th segment on do not point
below `_una_seqno` of `p`.  The index `k` is how far the deliveries have come, so a delivery in
order brings one of these. -/
structure Rising (k : ℕ) (p h : Host) : Prop where
  sorted : h.emitted.Pairwise fun s t =>
    s.header.ack = true → t.header.ack = true → p.pointed s ≤ p.pointed t
  ahead : ∀ j, k ≤ j → ∀ seg ∈ h.emitted[j]?, seg.header.ack = true →
    p.conn.sender.unaSeqno ≤ p.pointed seg

/-- Nothing has been acknowledged. -/
theorem rising_new (cfg cfg' : TCPConfig) : Rising 0 (new cfg) (new cfg') where
  sorted := .nil
  ahead := fun _ _ _ hseg => absurd (List.mem_of_getElem? hseg) List.not_mem_nil

/-- The bound is asked of fewer segments. -/
theorem Rising.later (rising : Rising k p h) {k' : ℕ} (hk : k ≤ k') : Rising k' p h :=
  ⟨rising.sorted, fun j hj => rising.ahead j (hk.trans hj)⟩

/-- An acknowledgment points to the position it was made for. -/
theorem pointed_wrap {q : ℕ} (small : q < 2 ^ 31)
    (hackno : seg.header.ackno = wrap q p.conn.sender.isn) : p.pointed seg = q := by
  rw [pointed, hackno, unwrap_wrap _ (by omega) (by omega) (by omega) (by omega)]

/-- What `h` sends points to what it has acknowledged, wherever it is unwrapped. -/
theorem Granted.pointed (granted : Granted p h) (inc : Incoming p h) (g : p.Outgoing)
    (small : p.accepted.length < 2 ^ 31 - 2) (hseg : seg ∈ h.emitted)
    (ack : seg.header.ack = true) :
    p.pointed seg ≤ h.conn.receiver.ackPosition ∧
      unwrap seg.header.ackno p.conn.sender.isn p.conn.sender.nextSeqno = p.pointed seg := by
  obtain ⟨q, hq, hackno, -⟩ := granted.acks seg hseg ack
  have hposition := inc.ackPosition_le
  have hnext := g.nextSeqno_le
  have hpointed : p.pointed seg = q := pointed_wrap (by omega) hackno
  refine ⟨hpointed.trans_le hq, ?_⟩
  rw [hpointed, hackno, unwrap_wrap _ (by omega) (by omega) (by omega) (by omega)]

/-- The next acknowledgment is not stale. -/
theorem Rising.fresh (rising : Rising k p h) (granted : Granted p h) (inc : Incoming p h)
    (g : p.Outgoing) (small : p.accepted.length < 2 ^ 31 - 2) {i : ℕ} (hi : k ≤ i)
    (hseg : h.emitted[i]? = some seg) : p.FreshAck seg := by
  intro ack
  rw [(granted.pointed inc g small (List.mem_of_getElem? hseg) ack).2]
  exact rising.ahead i hi seg hseg ack

/-- **The host that acknowledges acts.**  All that is new points to the same place, at least as far
as anything before. -/
theorem Rising.act (rising : Rising k p h) (granted : Granted p h) (inc : Incoming p h)
    (g : h.Outgoing) (small : h.accepted.length < 2 ^ 31 - 2) (fed : Fed p h op h') :
    Rising k p h' := by
  obtain ⟨extra, hextra, hnew⟩ := fed.emitted_new inc g small
  have hack := (fed.reception inc).1.ackPosition_le
  have hposition := (inc.act fed).ackPosition_le
  have hsmall := fed.small
  have hpointed : ∀ seg ∈ extra, seg.header.ack = true →
      p.pointed seg = h'.conn.receiver.ackPosition := fun seg hseg ack =>
    pointed_wrap (by omega) (hnew seg hseg ack).1
  constructor
  · rw [hextra]
    refine List.pairwise_append.mpr ⟨rising.sorted, ?_, ?_⟩
    · refine List.pairwise_of_forall_mem_list fun s hs t ht sack tack => ?_
      rw [hpointed s hs sack, hpointed t ht tack]
    · intro s hs t ht sack tack
      rw [hpointed t ht tack]
      exact (granted.pointed inc fed.peer hsmall hs sack).1.trans hack
  · intro j hj seg hseg ack
    rw [hextra, Option.mem_def, List.getElem?_append] at hseg
    split at hseg
    · exact rising.ahead j hj seg hseg ack
    · rw [hpointed seg (List.mem_of_getElem? hseg) ack]
      exact granted.una_le.trans hack

/-- **The host that is acknowledged acts.**  If `_una_seqno` moves, then to where the segment
delivered points, and those sent after it point further. -/
theorem Rising.peer (rising : Rising k p h) (granted : Granted p h) (inc : Incoming p h)
    (g : p.Outgoing) (small : p.accepted.length < 2 ^ 31 - 2)
    (delivered : ∀ seg, op = .segment seg → h.emitted[k]? = some seg) (fed : Fed h p op p') :
    Rising k p' h := by
  have effect := g.effect (g.nextSeqno_lt small) fed.acted
  have hpointed : ∀ seg, p'.pointed seg = p.pointed seg := fun seg => by
    rw [Host.pointed, effect.advanced.isn_eq, Host.pointed]
  refine ⟨by simpa only [hpointed] using rising.sorted, fun j hj seg hseg ack => ?_⟩
  rw [hpointed]
  rcases effect.una with hsame | ⟨ackno, hack, huna⟩
  · rw [hsame]
    exact rising.ahead j hj seg hseg ack
  · obtain ⟨first, hop, firstAck, rfl⟩ := ackedBy_eq_some hack
    have hfirst := delivered first hop
    rw [huna, (granted.pointed inc g small (List.mem_of_getElem? hfirst) firstAck).2]
    rcases hj.eq_or_lt with rfl | hlt
    · rw [Option.some.inj (hfirst.symm.trans hseg)]
    · obtain ⟨hk, rfl⟩ := List.getElem?_eq_some_iff.mp hfirst
      obtain ⟨hj, rfl⟩ := List.getElem?_eq_some_iff.mp hseg
      exact List.pairwise_iff_getElem.mp rising.sorted k j hk hj hlt firstAck ack

theorem Rising.transmit (rising : Rising k p h) : Rising k p h.transmit := by
  refine ⟨?_, ?_⟩ <;> rw [emitted_transmit]
  · exact rising.sorted
  · exact rising.ahead

theorem Rising.peer_transmit (rising : Rising k p h) : Rising k p.transmit h := by
  rw [transmit_frame p]
  exact ⟨rising.sorted, rising.ahead⟩

end Host

namespace Network

open Host

/-! ## Runs in order -/

namespace Op

/-- The segment that an operation delivers, and to which side. -/
def delivered : Op → Option (Side × ℕ)
  | .deliver side i => some (side, i)
  | .connect _ | .write _ _ | .endInputStream _ | .tick _ _ | .read _ _ | .transmit _ => none

/-- How many bytes an operation hands to the connection of a side. -/
def handed (side : Side) : Op → ℕ
  | .write side' data => if side' = side then data.length else 0
  | .connect _ | .endInputStream _ | .tick _ _ | .read _ _ | .transmit _ | .deliver _ _ => 0

/-- The second operation does not deliver to the same side what was sent before. -/
def Follows (op later : Op) : Prop :=
  ∀ d ∈ op.delivered, ∀ e ∈ later.delivered, d.1 = e.1 → d.2 ≤ e.2

instance (op later : Op) : Decidable (op.Follows later) :=
  inferInstanceAs (Decidable (∀ d ∈ op.delivered, _))

end Op

/-- To each side, segments are delivered in the order in which they were sent.  Some may be left
out, and the last one may come again. -/
def InOrder (ops : List Op) : Prop := ops.Pairwise Op.Follows

instance (ops : List Op) : Decidable (InOrder ops) := inferInstanceAs (Decidable (ops.Pairwise _))

/-- The segment that was delivered last. -/
def reach (reached : Side → ℕ) : Op → Side → ℕ
  | .deliver side i => Function.update reached side i
  | .connect _ | .write _ _ | .endInputStream _ | .tick _ _ | .read _ _ | .transmit _ => reached

/-- An operation delivers nothing that was sent before the segment that was delivered last. -/
def Within (reached : Side → ℕ) (op : Op) : Prop := ∀ d ∈ op.delivered, reached d.1 ≤ d.2

/-- A delivery in order does not go back. -/
theorem Within.le_reach {reached : Side → ℕ} {op : Op} (within : Within reached op)
    (side : Side) : reached side ≤ reach reached op side := by
  cases op with
  | deliver side' i =>
      have hle : reached side' ≤ i := within (side', i) rfl
      show reached side ≤ Function.update reached side' i side
      by_cases same : side = side'
      · rw [same, Function.update_self]
        exact hle
      · rw [Function.update_of_ne same]
  | _ => exact le_rfl

/-- What comes later is in order after it as well. -/
theorem Within.reach {reached : Side → ℕ} {op later : Op} (within : Within reached later)
    (follows : op.Follows later) : Within (reach reached op) later := by
  intro e he
  cases op with
  | deliver side i =>
      show Function.update reached side i e.1 ≤ e.2
      by_cases same : e.1 = side
      · rw [same, Function.update_self]
        exact follows (side, i) rfl e he same.symm
      · rw [Function.update_of_ne same]
        exact within e he
  | _ => exact within e he

/-- What holds of a network along a run in order.  `reached` says of each side which segment it
was given last; the list of operations determines it, and not the state. -/
structure Smooth (reached : Side → ℕ) (n : Network) : Prop where
  faithful : n.Faithful
  granted : n.Granted
  rising : ∀ side, Rising (reached side) (n side) (n side.peer)

/-- At the start nothing has been delivered. -/
theorem smooth_start {cfg : Side → TCPConfig}
    (hrecv : ∀ side, (cfg side).recvCapacity < 2 ^ 64)
    (hsend : ∀ side, (cfg side).sendCapacity < 2 ^ 64) : Smooth (fun _ => 0) (start cfg) where
  faithful := faithful_start hrecv hsend
  granted := granted_start hrecv
  rising := fun _ => rising_new _ _

/-- What is delivered in order is not stale. -/
theorem Smooth.fresh {reached : Side → ℕ} {n : Network} (smooth : Smooth reached n)
    (bounded : n.Bounded) {op : Op} (within : Within reached op) : n.FreshAck op := by
  cases op with
  | deliver side i =>
      intro seg hseg
      have granted := smooth.granted side.peer
      have incoming := (smooth.faithful side.peer).2
      rw [Side.peer_peer] at granted incoming
      exact (smooth.rising side).fresh granted incoming (smooth.faithful side).1 (bounded side)
        (within (side, i) rfl) (emitted_of_wire hseg)
  | _ => trivial

/-- **Every step in order keeps the acknowledgments rising.**  That the delivery in this step is
not stale comes from the invariant itself, and is what the invariant of the windows asks for. -/
theorem Smooth.step {reached : Side → ℕ} {n n' : Network} {op : Op} (smooth : Smooth reached n)
    (bounded : n.Bounded) (within : Within reached op) (h : n.step op = .ok n') :
    Smooth (reach reached op) n' := by
  have faithful := smooth.faithful
  refine ⟨faithful.step bounded h, smooth.granted.step faithful bounded
    (smooth.fresh bounded within) h, fun side' => ?_⟩
  have rising : ∀ side, Rising (reach reached op side) (n side) (n side.peer) := fun side =>
    (smooth.rising side).later (within.le_reach side)
  rcases step_cases h with rfl | ⟨side, rfl⟩ | ⟨side, act, h', hact, rfl, sent, -⟩
  · exact rising side'
  · rcases side.eq_or_eq_peer side' with rfl | rfl
    · simpa using (rising side').peer_transmit
    · simpa using (rising side.peer).transmit
  · obtain ⟨outgoing, incoming⟩ := faithful side
    have incoming' := (faithful side.peer).2
    have granted' := smooth.granted side.peer
    have rising' := rising side.peer
    rw [Side.peer_peer] at incoming' granted' rising'
    have fed := faithful.fed bounded hact fun seg hop => (sent seg hop).imp fun _ => And.right
    rcases side.eq_or_eq_peer side' with rfl | rfl
    · have delivered : ∀ seg, act = .segment seg →
          (n side'.peer).emitted[reach reached op side']? = some seg := by
        intro seg hop
        obtain ⟨i, rfl, hi⟩ := sent seg hop
        rw [reach, Function.update_self]
        exact emitted_of_wire hi
      simpa using (rising side').peer granted' incoming' outgoing (bounded side') delivered fed
    · simpa using rising'.act (smooth.granted side) incoming outgoing (bounded side) fed

/-- An operation hands at most its own bytes to a connection. -/
theorem accepted_le {n n' : Network} {op : Op} (h : n.step op = .ok n') (side : Side) :
    (n' side).accepted.length ≤ (n side).accepted.length + op.handed side := by
  rcases step_cases h with rfl | ⟨side', rfl⟩ | ⟨side', act, h', hact, rfl, -, written⟩
  · exact Nat.le_add_right _ _
  · by_cases same : side = side'
    · rw [same, Function.update_self, transmit_frame]
      exact Nat.le_add_right _ _
    · rw [Function.update_of_ne same]
      exact Nat.le_add_right _ _
  · by_cases same : side = side'
    · subst same
      rw [Function.update_self, (act_cases hact).2.1, List.length_append]
      cases act with
      | write data =>
          rw [written data rfl, Op.handed, if_pos rfl]
          exact Nat.add_le_add_left (List.length_take_le' _ data) _
      | _ => exact Nat.le_add_right _ _
    · rw [Function.update_of_ne same]
      exact Nat.le_add_right _ _

/-- The run goes on as long as there are operations. -/
theorem Smooth.execute {reached : Side → ℕ} {n : Network} {ops : List Op}
    (smooth : Smooth reached n) (within : ∀ op ∈ ops, Within reached op) (inOrder : InOrder ops)
    (small : ∀ side, (n side).accepted.length + (ops.map (Op.handed side)).sum < 2 ^ 31 - 2) :
    ∃ n', execute Network.step n ops = .ok n' := by
  induction ops generalizing reached n with
  | nil => exact ⟨n, rfl⟩
  | cons op ops ih =>
      have bounded : n.Bounded := fun side => (Nat.le_add_right _ _).trans_lt (small side)
      obtain ⟨here, later⟩ := List.forall_mem_cons.mp within
      obtain ⟨follows, rest⟩ := List.pairwise_cons.mp inOrder
      obtain ⟨n₁, stepped⟩ := smooth.granted.succeeds smooth.faithful bounded op
      obtain ⟨n', done⟩ := ih (smooth.step bounded here stepped)
        (fun op' hop' => (later op' hop').reach (follows op' hop')) rest fun side => by
          have hle := accepted_le stepped side
          have hsmall := small side
          rw [List.map_cons, List.sum_cons] at hsmall
          omega
      exact ⟨n', by rw [Runs.execute, stepped]; exact done⟩

/-- **A network that does not reorder makes no connection throw.**  Whatever the owners call, and
however many segments are lost or repeated: if those that arrive at a side arrive in the order in
which they were sent, every operation succeeds. -/
theorem inOrder_never_fails {cfg : Side → TCPConfig}
    (hrecv : ∀ side, (cfg side).recvCapacity < 2 ^ 64)
    (hsend : ∀ side, (cfg side).sendCapacity < 2 ^ 64) {ops : List Op} (inOrder : InOrder ops)
    (small : ∀ side, (ops.map (Op.handed side)).sum < 2 ^ 31 - 2) :
    ∃ n, execute step (start cfg) ops = .ok n := by
  refine (smooth_start hrecv hsend).execute (fun _ _ _ _ => Nat.zero_le _) inOrder fun side => ?_
  rw [show ((start cfg) side).accepted.length = 0 from rfl, Nat.zero_add]
  exact small side

/-- The window closes, and the acknowledgment that closes it comes twice.  The probe of the window
is lost, sent again, refused and delivered once more when there is room; data and the end of the
stream follow. -/
def lossyExchange : List Op :=
  windowClosed ++ [.deliver .a 1, .tick .a 1000, .transmit .a, .deliver .b 4, .read .b 4,
    .deliver .b 4, .transmit .b, .transmit .b, .deliver .a 3, .write .a [6, 7], .transmit .a,
    .deliver .b 5, .endInputStream .a, .transmit .a, .deliver .b 6, .deliver .b 6]

theorem inOrder_never_fails_lossyExchange :
    InOrder lossyExchange ∧ ∃ n, execute step (start fourBytes) lossyExchange = .ok n := by
  have inOrder : InOrder lossyExchange := by decide
  exact ⟨inOrder, inOrder_never_fails (by decide) (by decide) inOrder (by decide)⟩

end Network

end Sponge
