import Sponge.TCPConnection.Lifecycle
import Sponge.TCPSpongeSocket.Refinement

/-!
# From owner to owner

What the owners of two sockets can rely on, whatever lies between them: UDP, a TUN device,
Ethernet with address resolution, or any of these behind a lossy adapter.  The results are
about the bytes that go into and come out of the pipes, and about the flags with which a
socket tells its owner how it went.

* `owner_prefix` — what one owner has been given is a prefix of what the other has written.
* `owner_told` — an owner who sees the end of the data without an error has been given all of it.
* `finished_cleanly` — a connection that has "finished cleanly" has delivered everything in both
  directions.

The last two hold as long as no bare FIN overtakes the byte in front of it.

Everything about the streams is known of the network (`Network.Faithful`,
`Network.Acknowledged`) and comes to the sockets through the refinement.  What the network
does not know is that a connection whose queue has been emptied by its socket is still one
whose life can be followed: `Host.whole` puts the segments back in front of the queue.

### How a fact about hosts becomes one about owners

`refines` gives a run of the network for every run of the sockets, and the network's
invariants hold in it.  What an owner has been given is what its host has popped, and what
the peer's owner has written is what the peer has accepted, so `owner_prefix` needs nothing
more.  `owner_told` is about a flag, and needs that the stream, once done, stays done:
`watch_inboundDone` is this for the network.

### The bound

A side sends one SYN, its bytes and one FIN, and sequence numbers are compared within half
of their range.  Hence `2 ^ 31 - 2` bytes from each owner.  It is a bound on what the owners
write in the whole run, and stands in the results as a hypothesis on the last state, since
the history only grows.
-/

namespace Sponge

open EventLoop Runs

namespace Host

variable {h h' p : Host} {op : TCPConnection.Op}

/-! ## The end of the inbound stream -/

/-- The inbound stream has nothing more to give. -/
def inboundDone (h : Host) : Bool :=
  h.conn.receiver.streamOut.eof || h.conn.receiver.streamOut.error

/-- At its end a stream is empty, and has been ended. -/
theorem str_of_eof (d : Delivering p h) (eof : h.conn.receiver.streamOut.eof = true) :
    h.conn.receiver.streamOut.inputEnded = true ∧ h.conn.receiver.streamOut.str = [] := by
  obtain ⟨ended, empty⟩ := Bool.and_eq_true_iff.mp eof
  refine ⟨ended, List.length_eq_zero_iff.mp ?_⟩
  have held : h.conn.receiver.streamOut.curCap = h.conn.receiver.streamOut.str.length :=
    d.endHeld.faithful.inv.output.curCap_eq
  rw [← held]
  exact beq_iff_eq.mp empty

/-- **A stream that is done stays so.**  Nothing can be added to it: it is all that the peer has
accepted already. -/
theorem Reception.inboundDone (reception : Reception p h op h') (d : Delivering p h)
    (d' : Delivering p h') (done : h.inboundDone = true) : h'.inboundDone = true := by
  cases reception with
  | unchanged _ same =>
      unfold Host.inboundDone TCPReceiver.streamOut at done ⊢
      rw [same]
      exact done
  | error _ reassembler =>
      have failed : h'.conn.receiver.streamOut.error = true := by
        rw [TCPReceiver.streamOut, reassembler]
        rfl
      rw [Host.inboundDone, failed, Bool.or_true]
  | read len _ reassembler =>
      have popped : h'.conn.receiver.streamOut = h.conn.receiver.streamOut.popOutput len := by
        rw [TCPReceiver.streamOut, reassembler]
      rw [Host.inboundDone, popped]
      rcases Bool.or_eq_true_iff.mp done with eof | failed
      · have still := (ByteStream.staysEnded_popOutput h.conn.receiver.streamOut len).eof eof
        exact Bool.or_eq_true_iff.mpr (.inl still)
      · exact Bool.or_eq_true_iff.mpr (.inr failed)
  | push seg popped _ _ _ _ _ _ pushed =>
      have same : h'.conn.receiver.streamOut.error = h.conn.receiver.streamOut.error :=
        StreamReassembler.pushSubstring_error pushed
      rcases Bool.or_eq_true_iff.mp done with eof | failed
      · obtain ⟨ended, empty⟩ := str_of_eof d eof
        have ended' : h'.conn.receiver.streamOut.inputEnded = true :=
          (StreamReassembler.pushSubstring_grown pushed).ended ended
        -- before and after, what is read and what is buffered make up all that the peer has
        -- accepted
        have all : h'.popped ++ h'.conn.receiver.streamOut.str
            = h.popped ++ h.conn.receiver.streamOut.str :=
          (d'.written_of_ended ended').trans (d.written_of_ended ended).symm
        rw [popped, empty] at all
        have empty' := List.append_cancel_left all
        have none : h'.conn.receiver.streamOut.curCap = 0 := by
          have held : h'.conn.receiver.streamOut.curCap = h'.conn.receiver.streamOut.str.length :=
            d'.endHeld.faithful.inv.output.curCap_eq
          rw [held, empty']
          rfl
        refine Bool.or_eq_true_iff.mpr (.inl (Bool.and_eq_true_iff.mpr ⟨ended', ?_⟩))
        exact beq_iff_eq.mpr none
      · rw [Host.inboundDone, same, failed, Bool.or_true]

/-! ## The life of the connection -/

/-- The connection, with what has left the queue still in front of it. -/
def whole (h : Host) : TCPConnection := h.conn.behind h.wire

/-- A segment that leaves the queue is put back in front of it. -/
theorem whole_transmit (h : Host) : h.transmit.whole = h.whole := by
  unfold transmit
  split
  · rfl
  · next seg rest queue =>
    simp only [whole, TCPConnection.behind, queue, List.append_assoc, List.singleton_append]

/-- What was sent before does not matter to the connection. -/
theorem whole_act (acted : h.act op = .ok h') : h.whole.step op = .ok h'.whole := by
  obtain ⟨stepped, -, -, wire, -⟩ := act_cases acted
  rw [whole, TCPConnection.step_behind, stepped, whole, wire]
  rfl

end Host

namespace Network

open Host

/-- What holds of both hosts in a run in which FINs arrive in order.  Each part was proved for the
network by itself; a socket inherits them through the refinement. -/
structure Known (n : Network) : Prop where
  faithful : n.Faithful
  acknowledged : n.Acknowledged
  tracked : ∀ side, (n side).whole.Tracked

/-- The life of both connections can be followed, step by step. -/
theorem tracked_step {n n' : Network} {op : Op} (tracked : ∀ side, (n side).whole.Tracked)
    (faithful : n.Faithful) (bounded : n.Bounded) (step : n.step op = .ok n') (side : Side) :
    (n' side).whole.Tracked := by
  have updated : ∀ {side' : Side} {h' : Host}, h'.whole.Tracked →
      (Function.update n side' h' side).whole.Tracked := by
    intro side' h' here
    by_cases hside : side = side'
    · subst hside
      rw [Function.update_self]
      exact here
    · rw [Function.update_of_ne hside]
      exact tracked side
  rcases step_cases step with rfl | ⟨side', rfl⟩ | ⟨side', act, h', hact, rfl, -, -⟩
  · exact tracked side
  · refine updated ?_
    rw [whole_transmit]
    exact tracked side'
  · exact updated ((tracked side').step ((faithful side').1.nextSeqno_lt (bounded side'))
      (whole_act hact))

/-- By induction over the run. -/
theorem known_of_run {cfg : Side → TCPConfig} (hrecv : ∀ side, (cfg side).recvCapacity < 2 ^ 64)
    (hsend : ∀ side, (cfg side).sendCapacity < 2 ^ 64) {n : Network}
    (run : GuardedRun step (TCPSpongeSocket.Admits True) (start cfg) n) (bounded : n.Bounded) :
    n.Known := by
  refine run.invariant (fun n => n.Bounded → n.Known)
    (fun _ => ⟨faithful_start hrecv hsend, acknowledged_start hrecv,
      fun side => TCPConnection.tracked_new (hsend side)⟩)
    (fun n op n' ih admits step bounded' => ?_) bounded
  have bounded : n.Bounded := bounded'.before step
  obtain ⟨faithful, acknowledged, tracked⟩ := ih bounded
  exact ⟨faithful.step bounded step,
    acknowledged.step faithful bounded admits.1 (admits.2 trivial) step,
    tracked_step tracked faithful bounded step⟩

/-- **Once the inbound stream of a side is done, it is done for good.** -/
theorem watch_inboundDone {cfg : Side → TCPConfig}
    (hrecv : ∀ side, (cfg side).recvCapacity < 2 ^ 64)
    (hsend : ∀ side, (cfg side).sendCapacity < 2 ^ 64) :
    TCPSpongeSocket.Watch True cfg fun side n => n.Bounded → (n side).inboundDone = true where
  entered _ _ _ done _ := done
  stays side n op n' reached told admits step bounded' := by
    have bounded : n.Bounded := bounded'.before step
    have known := known_of_run hrecv hsend reached bounded
    have known' := known_of_run hrecv hsend (reached.tail admits step) bounded'
    have done := told bounded
    rcases step_cases step with rfl | ⟨side', rfl⟩ | ⟨side', act, h', hact, rfl, sent, -⟩
    · exact done
    · by_cases hside : side = side'
      · subst hside
        rw [Function.update_self, transmit_frame]
        exact done
      · rw [Function.update_of_ne hside]
        exact done
    · by_cases hside : side = side'
      · subst hside
        have fed := known.faithful.fed bounded hact fun seg hop =>
          (sent seg hop).imp fun _ => And.right
        have after := (known'.acknowledged side).2
        rw [Function.update_self, Function.update_of_ne side.peer_ne] at after
        rw [Function.update_self]
        exact (fed.reception (known.faithful side).2).1.inboundDone (known.acknowledged side).2
          after done
      · rw [Function.update_of_ne hside]
        exact done

/-- **A host that has closed without error has been heard to the end**, and has heard its peer to the
end. -/
theorem Known.closed {n : Network} (known : n.Known) {side : Side}
    (inactive : (n side).conn.active = false)
    (noError : (n side).conn.sender.stream.error = false) :
    (n side).written = (n side.peer).accepted ∧ (n side.peer).written = (n side).accepted := by
  have closed : (n side).whole.Closed := (known.tracked side).closed inactive noError
  obtain ⟨settled, delivering⟩ := known.acknowledged side
  have delivering' := (known.acknowledged side.peer).2
  have incoming' := (known.faithful side.peer).2
  rw [Side.peer_peer] at delivering' incoming'
  refine ⟨delivering.written_of_ended closed.inEnded, delivering'.written_of_ended ?_⟩
  -- the acknowledgment of the FIN is only made when the stream has ended
  have complete : (n side).conn.sender.nextSeqno = _ := settled.complete closed.finSent
  have acked : (n side).conn.sender.unaSeqno = (n side).conn.sender.nextSeqno := closed.acked
  have reached := delivering'.una_le
  have hcur : (n side.peer).conn.receiver.curIndex ≤ (n side).accepted.length :=
    incoming'.faithful.curIndex_le
  by_contra notEnded
  rw [TCPReceiver.ackPosition, if_neg notEnded] at reached
  omega

end Network

namespace TCPSpongeSocket

variable {A D : Type} [FdAdapter A D] {relay : Relay A} {cfg : Side → TCPConfig}

/-! ## What the owners see -/

/-- The owners have written less than `2^31 - 2` bytes each. -/
def Pair.Bounded (p : Pair A D) : Prop := ∀ side, (p side).sock.fromOwner.length < 2 ^ 31 - 2

/-- The bound on the owners is the bound on the network. -/
theorem Refined.bounded {ordered : Prop} {Told : Side → Network → Prop} {p : Pair A D} {n : Network}
    (refined : Refined relay ordered cfg Told p n) (bounded : p.Bounded) : n.Bounded := by
  intro side
  rw [refined.shown side]
  exact bounded side

/-- **What one owner has been given is a prefix of what the other has written**, however the threads
take turns, whatever the kernel answers, and whatever is lost, repeated or reordered on the way. -/
theorem owner_prefix (lawful : FdAdapter.Lawful A)
    (hrecv : ∀ side, (cfg side).recvCapacity < 2 ^ 64)
    (hsend : ∀ side, (cfg side).sendCapacity < 2 ^ 64) {p₀ p : Pair A D}
    (begins : ∀ side, Begins relay (cfg side) (p₀ side))
    (run : GuardedRun Pair.turn (Happens relay False) p₀ p) (bounded : p.Bounded) (side : Side) :
    (p side).sock.toOwner <+: (p side.peer).sock.fromOwner := by
  obtain ⟨n, refined⟩ := refines (watch_true False) lawful begins run
  have faithful := Network.faithful_of_run hrecv hsend refined.reached (refined.bounded bounded)
  have written := (faithful side).2.faithful.written_eq
  rw [refined.shown side, refined.shown side.peer] at written
  calc (p side).sock.toOwner
      <+: (p side).sock.toOwner ++ (p side).sock.tcp.receiver.streamOut.str :=
        List.prefix_append _ _
    _ <+: (p side.peer).sock.fromOwner := by
        rw [show (p side).sock.toOwner ++ (p side).sock.tcp.receiver.streamOut.str = _ from written]
        exact List.take_prefix _ _

/-- The second of two segments arrives before the first, and a third time. -/
def overtaken : List Event :=
  [{ side := .a, poll := [{}, { pollin := true }, {}, { pollout := true }], data := [104] },
    { side := .a, poll := [{}, { pollin := true }], data := [105] },
    { side := .a, poll := [{}, {}, {}, { pollout := true }] },
    { side := .b, poll := [{ pollin := true }], index := 3 },
    { side := .b, poll := [] },
    { side := .b, poll := [{ pollin := true }], index := 2 },
    { side := .b, poll := [{ pollin := true }, {}, { pollout := true }], index := 3 }]

theorem owner_prefix_overtaken :
    ∃ p, execute happen callerAndCallee (handshake ++ overtaken) = .ok p ∧
      (p .b).sock.toOwner = [104, 105] ∧ (p .b).sock.toOwner <+: (p .a).sock.fromOwner := by
  obtain ⟨p, done, bounded, given⟩ : ∃ p, execute happen callerAndCallee (handshake ++ overtaken)
      = .ok p ∧ (∀ side, (p side).sock.fromOwner.length < 2 ^ 31 - 2) ∧
        (p .b).sock.toOwner = [104, 105] := EndsIn.exists_ok (by decide +kernel)
  have admitted : Admitted happen (fun p e => False → e.InOrder p) callerAndCallee
      (handshake ++ overtaken) := admitted_of_forall (fun _ _ => False.elim) _ _
  exact ⟨p, done, given, owner_prefix TCPOverUDPSocketAdapter.lawful (by decide) (by decide)
    callerAndCallee_begins (run_of_events admitted done) bounded .b⟩

/-- **An owner who sees the end of the data without an error has been given all of it.**  The end
is shown when the inbound stream is done, and by then the peer can have nothing to add. -/
theorem owner_told (lawful : FdAdapter.Lawful A)
    (hrecv : ∀ side, (cfg side).recvCapacity < 2 ^ 64)
    (hsend : ∀ side, (cfg side).sendCapacity < 2 ^ 64) {p₀ p : Pair A D}
    (begins : ∀ side, Begins relay (cfg side) (p₀ side))
    (run : GuardedRun Pair.turn (Happens relay True) p₀ p) (bounded : p.Bounded) {side : Side}
    (shut : (p side).sock.inboundShutdown = true)
    (noError : (p side).sock.tcp.receiver.streamOut.error = false) :
    (p side).sock.toOwner = (p side.peer).sock.fromOwner := by
  obtain ⟨n, refined⟩ := refines (Network.watch_inboundDone hrecv hsend) lawful begins run
  have known := Network.known_of_run hrecv hsend refined.reached (refined.bounded bounded)
  have done := refined.told side shut (refined.bounded bounded)
  have delivering := (known.acknowledged side).2
  have eof : (n side).conn.receiver.streamOut.eof = true := by
    refine (Bool.or_eq_true_iff.mp done).resolve_right ?_
    rw [refined.shown side, noError]
    exact Bool.false_ne_true
  obtain ⟨ended, empty⟩ := Host.str_of_eof delivering eof
  have written := delivering.written_of_ended ended
  rw [Host.written, empty, List.append_nil, refined.shown side, refined.shown side.peer] at written
  exact written

/-- Each owner writes two bytes and finishes; each is given those of the other. -/
def exchange : List Event :=
  [{ side := .a, poll := [{}, { pollin := true }, {}, { pollout := true }], data := [104, 105] },
    { side := .a, poll := [{}, { pollin := true }] },
    { side := .a, poll := [{}, {}, { pollout := true }] },
    { side := .b, poll := [{ pollin := true }], index := 1 },
    { side := .b, poll := [] },
    { side := .b, poll := [{ pollin := true }], index := 2 },
    { side := .b, poll := [{}, { pollin := true }, { pollout := true }, { pollout := true }]
      data := [111, 107] },
    { side := .b, poll := [{ pollin := true }], index := 3 },
    { side := .b, poll := [{}, { pollin := true }, { pollout := true }, { pollout := true }] },
    { side := .a, poll := [{ pollin := true }], index := 2 },
    { side := .a, poll := [{}, { pollout := true }, { pollout := true }] },
    { side := .a, poll := [{ pollin := true }], index := 4 },
    { side := .a, poll := [{}, { pollout := true }, { pollout := true }] },
    { side := .b, poll := [{ pollin := true }], index := 5 }]

theorem admitted_exchange : Admitted happen (fun p e => True → e.InOrder p) callerAndCallee
    (handshake ++ exchange) := by decide +kernel

theorem owner_told_exchange :
    ∃ p, execute happen callerAndCallee (handshake ++ exchange) = .ok p ∧
      (p .b).sock.fromOwner = [111, 107] ∧ (p .a).sock.toOwner = (p .b).sock.fromOwner := by
  obtain ⟨p, done, bounded, taken, shut, noError⟩ : ∃ p, execute happen callerAndCallee
      (handshake ++ exchange) = .ok p ∧ (∀ side, (p side).sock.fromOwner.length < 2 ^ 31 - 2) ∧
        (p .b).sock.fromOwner = [111, 107] ∧ (p .a).sock.inboundShutdown = true ∧
        (p .a).sock.tcp.receiver.streamOut.error = false := EndsIn.exists_ok (by decide +kernel)
  exact ⟨p, done, taken, owner_told TCPOverUDPSocketAdapter.lawful (by decide) (by decide)
    callerAndCallee_begins (run_of_events admitted_exchange done) bounded shut noError⟩

/-- The condition under which `_tcp_main` reports that a connection has finished cleanly. -/
def FinishedCleanly (c : TCPConnection) : Prop :=
  c.active = false ∧ c.state ≠ TCPState.ofState .reset

instance (c : TCPConnection) : Decidable (FinishedCleanly c) := inferInstanceAs (Decidable (_ ∧ _))

/-- The report is right about the errors. -/
theorem FinishedCleanly.noError {c : TCPConnection} (h : FinishedCleanly c)
    (errors : c.sender.stream.error = c.receiver.streamOut.error) :
    c.sender.stream.error = false := by
  by_contra failed
  have sender : c.sender.stream.error = true := Bool.eq_true_of_not_eq_false failed
  have receiver : c.receiver.streamOut.error = true := errors ▸ sender
  apply h.2
  simp only [TCPConnection.state, TCPState.ofParts, TCPState.senderSummary,
    TCPState.receiverSummary, sender, receiver, h.1, if_true, Bool.false_eq_true, if_false,
    TCPState.ofState]

/-- **A connection that has finished cleanly has delivered everything in both directions**: what its
owner wrote has arrived at the peer, and what the peer's owner wrote has arrived here, up to what
has not yet been handed over. -/
theorem finished_cleanly (lawful : FdAdapter.Lawful A)
    (hrecv : ∀ side, (cfg side).recvCapacity < 2 ^ 64)
    (hsend : ∀ side, (cfg side).sendCapacity < 2 ^ 64) {p₀ p : Pair A D}
    (begins : ∀ side, Begins relay (cfg side) (p₀ side))
    (run : GuardedRun Pair.turn (Happens relay True) p₀ p) (bounded : p.Bounded) {side : Side}
    (finished : FinishedCleanly (p side).sock.tcp) :
    (p side).sock.toOwner ++ (p side).sock.tcp.receiver.streamOut.str
        = (p side.peer).sock.fromOwner ∧
      (p side.peer).sock.toOwner ++ (p side.peer).sock.tcp.receiver.streamOut.str
        = (p side).sock.fromOwner := by
  obtain ⟨n, refined⟩ := refines (watch_true True) lawful begins run
  have known := Network.known_of_run hrecv hsend refined.reached (refined.bounded bounded)
  have hconn : (n side).conn = (p side).sock.tcp := by rw [refined.shown side]
  have errors : (n side).conn.sender.stream.error = (n side).conn.receiver.streamOut.error :=
    (known.tracked side).errors
  rw [← hconn] at finished
  have both := known.closed finished.1 (finished.noError errors)
  rw [Host.written, Host.written, refined.shown side, refined.shown side.peer] at both
  exact both

theorem finished_cleanly_exchange :
    ∃ p, execute happen callerAndCallee (handshake ++ exchange) = .ok p ∧
      FinishedCleanly (p .b).sock.tcp ∧
      (p .a).sock.toOwner ++ (p .a).sock.tcp.receiver.streamOut.str = (p .b).sock.fromOwner := by
  obtain ⟨p, done, bounded, finished⟩ : ∃ p, execute happen callerAndCallee
      (handshake ++ exchange) = .ok p ∧ (∀ side, (p side).sock.fromOwner.length < 2 ^ 31 - 2) ∧
        FinishedCleanly (p .b).sock.tcp := EndsIn.exists_ok (by decide +kernel)
  exact ⟨p, done, finished, (finished_cleanly TCPOverUDPSocketAdapter.lawful (by decide) (by decide)
    callerAndCallee_begins (run_of_events admitted_exchange done) bounded finished).2⟩

end TCPSpongeSocket

end Sponge
